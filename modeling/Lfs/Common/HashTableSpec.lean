/-
What the operations of the hash table do to its buckets.

`Rep t bs` says that the slots of the table `t` hold the lists `bs` of nodes.  Adding a node pushes it
to the front of its list, a resize pushes all nodes one after the other, and deleting the node at the
front of its list takes it off.  Deleting a node behind the front leaves a list that does not end: it
leads to the freed node, or back to the node that was allocated in its place.
-/
import Lfs.Common.HashTable
import Lfs.Lib.Buckets
import Mathlib.Data.List.AList
import Mathlib.Data.List.TakeWhile

namespace Lfs.Common

open List Option Function HashTable

namespace HashTable

open Lfs.Lib

variable {hashFunc : List Byte → UInt32} {t t' : HashTable} {bs bs' : Buckets ℕ} {L : List ℕ}
  {key : List Byte} {i a n : ℕ} {x : Option ℕ} {f : ℕ → ℕ}

/-! ### Lists of nodes -/

/-- The key and the value of a node. -/
def info (t : HashTable) (a : ℕ) : Option (Σ _ : List Byte, List Byte) :=
  (t.heap a).map fun phd => ⟨phd.key, phd.value⟩

/-- The slots hold the lists `bs`. -/
structure Chains (t : HashTable) (bs : Buckets ℕ) : Prop where
  length : bs.length = t.table.length
  seg : ∀ (i : ℕ) (L : List ℕ) (x : Option ℕ), bs[i]? = some L → t.table[i]? = some x →
    Seg t.next x L none

/-- Nodes may have been linked in another way, and nothing else has changed. -/
structure Relinked (t t' : HashTable) : Prop where
  info : ∀ b, t'.info b = t.info b
  nodes : t'.nodes = t.nodes
  capacity : t'.capacity = t.capacity
  length : t'.table.length = t.table.length
  loadFactor : t'.loadFactor = t.loadFactor

lemma Relinked.refl (t : HashTable) : t.Relinked t := ⟨fun _ => rfl, rfl, rfl, rfl, rfl⟩

lemma Relinked.trans {t'' : HashTable} (h : t.Relinked t') (h' : t'.Relinked t'') :
    t.Relinked t'' :=
  ⟨fun b => (h'.info b).trans (h.info b), h'.nodes.trans h.nodes, h'.capacity.trans h.capacity,
    h'.length.trans h.length, h'.loadFactor.trans h.loadFactor⟩

lemma Relinked.indexFor_eq (h : t.Relinked t')
    (hf : ∀ b e, t.info b = some e → f b = indexFor (hashFunc e.1) t.capacity) (b : ℕ)
    (e : Σ _ : List Byte, List Byte) (he : t'.info b = some e) :
    f b = indexFor (hashFunc e.1) t'.capacity := by
  rw [h.info] at he
  rw [h.capacity, hf b e he]

lemma next_congr {b : ℕ} (h : t'.heap b = t.heap b) : t'.next b = t.next b :=
  congrArg (Option.map HashData.next) h

lemma Chains.set {L : List ℕ} (h : Chains t bs) (hi : i < bs.length) (htable : t'.table = t.table.set i x)
    (hseg : Seg t'.next x L none)
    (hother : ∀ j L', i ≠ j → bs[j]? = some L' → ∀ b ∈ L', t'.next b = t.next b) :
    Chains t' (bs.set i L) := by
  have hi' : i < t.table.length := h.length ▸ hi
  refine ⟨by rw [htable, length_set, length_set, h.length], fun j L' y hL' hy => ?_⟩
  rw [htable] at hy
  by_cases hij : i = j
  · subst hij
    rw [getElem?_set_self hi] at hL'
    rw [getElem?_set_self hi'] at hy
    obtain rfl := some.inj hL'
    obtain rfl := some.inj hy
    exact hseg
  · rw [getElem?_set_ne hij] at hL' hy
    exact (h.seg j L' y hL' hy).congr (hother j L' hij hL')

lemma addNode_eq {phd : HashData} (ha : t.heap a = some phd) (hx : t.table[i]? = some x) :
    t.addNode i a = some
      { t with
        heap := update t.heap a (some { phd with next := x })
        table := t.table.set i (some a)
        itemCount := t.itemCount + 1 } := by
  rw [addNode, ha, hx]
  rfl

lemma Chains.addNode (h : Chains t bs) (ha : (t.heap a).isSome) (hnew : a ∉ bs.flatten)
    (hi : i < bs.length) :
    ∃ t' bs', t.addNode i a = some t' ∧ bs.push i a = some bs' ∧ Chains t' bs' ∧ t.Relinked t' ∧
      (∀ b, b ≠ a → t'.heap b = t.heap b) ∧ t'.itemCount = t.itemCount + 1 := by
  obtain ⟨phd, hphd⟩ := isSome_iff_exists.1 ha
  have hi' : i < t.table.length := h.length ▸ hi
  have hx : t.table[i]? = some t.table[i] := getElem?_eq_getElem hi'
  have hseg := h.seg i bs[i] t.table[i] (getElem?_eq_getElem hi) hx
  refine ⟨_, _, addNode_eq hphd hx, Buckets.push_eq_some hi, ?_, ?_, ?_, rfl⟩
  · -- the lists of the slots do not go through the node
    have hframe {L : List ℕ} (hL : L ∈ bs) (b : ℕ) (hb : b ∈ L) :
        (update t.heap a (some { phd with next := t.table[i] }) b).map HashData.next =
          t.next b := by
      have hne : b ≠ a := ne_of_mem_of_not_mem (mem_flatten_of_mem hL hb) hnew
      rw [update_of_ne hne]
      rfl
    refine h.set hi rfl ⟨rfl, t.table[i], ?_, hseg.congr (hframe (getElem_mem hi))⟩
      fun j L _ hL => hframe (mem_of_getElem? hL)
    simp [next]
  · refine ⟨fun b => ?_, rfl, rfl, by simp, rfl⟩
    by_cases hb : b = a
    · subst hb
      simp [info, hphd]
    · simp [info, hb]
  · intro b hb
    exact update_of_ne hb _ _

/-- **Moving the nodes of a bucket** pushes them one after the other to the lists `f` tells. -/
lemma Chains.rehashChain (h : Chains t bs)
    (hf : ∀ b e, t.info b = some e → f b = indexFor (hashFunc e.1) t.capacity)
    (hlt : ∀ b ∈ L, f b < bs.length) (hL : Seg t.next x L none) (hnew : ∀ b ∈ L, b ∉ bs.flatten)
    (hn : L.length ≤ n) :
    ∃ t' bs', HashTable.rehashChain hashFunc n x t = some t' ∧ Buckets.pushAll f bs L = some bs' ∧
      Chains t' bs' ∧ t.Relinked t' ∧ (∀ b, b ∉ L → t'.heap b = t.heap b) ∧
      t'.itemCount = t.itemCount + L.length := by
  induction L generalizing t bs x n with
  | nil =>
    obtain rfl := Seg.nil_iff.1 hL
    refine ⟨t, bs, ?_, rfl, h, .refl t, fun _ _ => rfl, by simp⟩
    cases n <;> rfl
  | cons a L ih =>
    have hnodup := nodup_cons.1 hL.nodup
    obtain ⟨rfl, z, hz, hrest⟩ := hL
    obtain ⟨phd, hphd, rfl⟩ := map_eq_some_iff.1 hz
    have hfa : f a = indexFor (hashFunc phd.key) t.capacity :=
      hf a ⟨phd.key, phd.value⟩ (by rw [info, hphd]; rfl)
    obtain ⟨t₁, bs₁, ht₁, hbs₁, hchains₁, hrel₁, hheap₁, hcount₁⟩ :=
      h.addNode (isSome_iff_exists.2 ⟨phd, hphd⟩) (hnew a mem_cons_self)
        (hlt a mem_cons_self)
    have hseg₁ : Seg t₁.next phd.next L none := hrest.congr fun b hb =>
      next_congr (hheap₁ b (ne_of_mem_of_not_mem hb hnodup.1))
    have hnew₁ : ∀ b ∈ L, b ∉ bs₁.flatten := by
      intro b hb hmem
      rcases mem_cons.1 ((Buckets.flatten_push_perm hbs₁).mem_iff.1 hmem) with rfl | hmem
      · exact hnodup.1 hb
      · exact hnew b (mem_cons_of_mem a hb) hmem
    have hlt₁ : ∀ b ∈ L, f b < bs₁.length := fun b hb => by
      rw [Buckets.push_length hbs₁]
      exact hlt b (mem_cons_of_mem a hb)
    cases n with
    | zero => exact absurd hn (by simp)
    | succ n =>
      obtain ⟨t₂, bs₂, ht₂, hbs₂, hchains₂, hrel₂, hheap₂, hcount₂⟩ :=
        ih hchains₁ (hrel₁.indexFor_eq hf) hlt₁ hseg₁ hnew₁ (Nat.le_of_succ_le_succ hn)
      refine ⟨t₂, bs₂, ?_, ?_, hchains₂, hrel₁.trans hrel₂, fun b hb => ?_, ?_⟩
      · rw [HashTable.rehashChain, hphd]
        dsimp only
        rw [← hfa, ht₁, bind_some, ht₂]
      · simp only [Buckets.pushAll, foldlM_cons, hbs₁, bind_eq_bind, bind_some]
        exact hbs₂
      · rw [mem_cons, not_or] at hb
        rw [hheap₂ b hb.2, hheap₁ b hb.1]
      · rw [hcount₂, hcount₁, length_cons]
        omega

lemma Chains.rehash {xs : List (Option ℕ)} {Ls : Buckets ℕ} (h : Chains t bs)
    (hf : ∀ b e, t.info b = some e → f b = indexFor (hashFunc e.1) t.capacity)
    (hlt : ∀ b ∈ Ls.flatten, f b < bs.length)
    (hLs : List.Forall₂ (fun x L => Seg t.next x L none) xs Ls)
    (hnew : ∀ b ∈ Ls.flatten, b ∉ bs.flatten) (hnodup : Ls.flatten.Nodup)
    (hn : ∀ L ∈ Ls, L.length ≤ n) :
    ∃ t' bs', xs.foldlM (fun t' head => HashTable.rehashChain hashFunc n head t') t = some t' ∧
      Buckets.pushAll f bs Ls.flatten = some bs' ∧ Chains t' bs' ∧ t.Relinked t' ∧
      t'.itemCount = t.itemCount + Ls.flatten.length := by
  induction xs generalizing t bs Ls with
  | nil =>
    obtain rfl := forall₂_nil_left_iff.1 hLs
    exact ⟨t, bs, rfl, rfl, h, .refl t, by simp⟩
  | cons x xs ih =>
    obtain ⟨L, Ls, hL, hrest, rfl⟩ := forall₂_cons_left_iff.1 hLs
    rw [flatten_cons] at hlt hnew hnodup
    obtain ⟨hnodupL, hnodupLs, hdisjoint⟩ := nodup_append.1 hnodup
    have hmemL {b : ℕ} (hb : b ∈ L) : b ∈ L ++ Ls.flatten := mem_append_left _ hb
    have hmemLs {b : ℕ} (hb : b ∈ Ls.flatten) : b ∈ L ++ Ls.flatten := mem_append_right _ hb
    obtain ⟨t₁, bs₁, ht₁, hbs₁, hchains₁, hrel₁, hheap₁, hcount₁⟩ :=
      h.rehashChain hf (fun b hb => hlt b (hmemL hb)) hL (fun b hb => hnew b (hmemL hb))
        (hn L mem_cons_self)
    have hlt₁ : ∀ b ∈ Ls.flatten, f b < bs₁.length := fun b hb => by
      rw [Buckets.pushAll_length hbs₁]
      exact hlt b (hmemLs hb)
    -- the lists that are still to be moved are as they were
    have hLs₁ : List.Forall₂ (fun x L => Seg t₁.next x L none) xs Ls := by
      obtain ⟨hlen, hzip⟩ := forall₂_iff_zip.1 hrest
      refine forall₂_iff_zip.2 ⟨hlen, fun {y M} hyM => (hzip hyM).congr fun b hb => ?_⟩
      have hbLs : b ∈ Ls.flatten := mem_flatten_of_mem (of_mem_zip hyM).2 hb
      exact next_congr (hheap₁ b fun hbL => hdisjoint b hbL b hbLs rfl)
    have hnew₁ : ∀ b ∈ Ls.flatten, b ∉ bs₁.flatten := by
      intro b hb hmem
      rcases mem_append.1 ((Buckets.flatten_pushAll_perm hbs₁).mem_iff.1 hmem) with hmem | hmem
      · exact hdisjoint b hmem b hb rfl
      · exact hnew b (hmemLs hb) hmem
    obtain ⟨t₂, bs₂, ht₂, hbs₂, hchains₂, hrel₂, hcount₂⟩ :=
      ih hchains₁ (hrel₁.indexFor_eq hf) hlt₁ hLs₁ hnew₁ hnodupLs fun M hM => hn M (mem_cons_of_mem L hM)
    refine ⟨t₂, bs₂, ?_, ?_, hchains₂, hrel₁.trans hrel₂, ?_⟩
    · simp only [foldlM_cons, ht₁, bind_eq_bind, bind_some, ht₂]
    · rw [Buckets.pushAll] at hbs₁ hbs₂ ⊢
      simp only [flatten_cons, foldlM_append, hbs₁, bind_eq_bind, bind_some, hbs₂]
    · rw [hcount₂, hcount₁, flatten_cons, length_append]
      omega

/-! ### The buckets of a table -/

lemma indexFor_lt (h : UInt32) (k : ℕ) : indexFor h (2 ^ k) < 2 ^ k := by
  rw [indexFor, Nat.and_two_pow_sub_one_eq_mod]
  exact Nat.mod_lt _ (Nat.two_pow_pos k)

/-- The table holds the lists `bs`: each node of the heap is in one of them, and each list has the nodes
of its index. -/
structure Rep (hashFunc : List Byte → UInt32) (t : HashTable) (bs : Buckets ℕ) : Prop where
  pow : ∃ k, t.capacity = 2 ^ k
  chains : Chains t bs
  length : t.table.length = t.capacity
  nodup : bs.flatten.Nodup
  live : ∀ a, (t.info a).isSome ↔ a ∈ bs.flatten
  nodes : t.nodes = bs.flatten.length
  count : t.itemCount = bs.flatten.length
  home : ∀ i a, bs.Mem i a → ∀ e ∈ t.info a, indexFor (hashFunc e.1) t.capacity = i

/-- A finite map from byte strings to byte strings. -/
abbrev ByteMap : Type := AList fun _ : List Byte => List Byte

variable {m : ByteMap}

/-- The nodes hold the entries of the map `m`. -/
def Holds (t : HashTable) (bs : Buckets ℕ) (m : ByteMap) : Prop :=
  (bs.flatten.filterMap t.info).Perm m.entries

lemma Holds.congr (h : Holds t bs m) (hperm : bs'.flatten.Perm bs.flatten)
    (hinfo : ∀ b ∈ bs.flatten, t'.info b = t.info b) : Holds t' bs' m := by
  have hmap : bs.flatten.filterMap t'.info = bs.flatten.filterMap t.info :=
    filterMap_congr hinfo
  exact (hperm.filterMap t'.info).trans (hmap ▸ h)

section

variable (h : Rep hashFunc t bs)
include h

lemma Rep.length_eq : bs.length = t.capacity :=
  h.chains.length.trans h.length

lemma Rep.bucketOf_lt (key : List Byte) : t.bucketOf hashFunc key < t.capacity := by
  obtain ⟨k, hk⟩ := h.pow
  rw [bucketOf, hk]
  exact indexFor_lt _ k

lemma Rep.length_le (hL : L ∈ bs) : L.length ≤ t.nodes := by
  rw [h.nodes]
  exact (sublist_flatten_of_mem hL).length_le

lemma Rep.hashTableResize (hm : Holds t bs m) :
    ∃ t' bs', t.hashTableResize hashFunc (2 * t.capacity) = some t' ∧ Rep hashFunc t' bs' ∧
      Holds t' bs' m := by
  rw [HashTable.hashTableResize]
  split_ifs with hint hlength
  · exact ⟨t, bs, rfl, h, hm⟩
  · exact absurd h.length hlength
  obtain ⟨k, hk⟩ := h.pow
  have hcap : 2 * t.capacity = 2 ^ (k + 1) := by rw [hk, pow_succ, mul_comm]
  set t₀ : HashTable := { t with
    table := replicate (2 * t.capacity) none, capacity := 2 * t.capacity, itemCount := 0 } with ht₀
  set f : ℕ → ℕ := fun b => ((t.info b).map fun e => indexFor (hashFunc e.1) t₀.capacity).getD 0
    with hf
  have hfinfo : ∀ b e, t₀.info b = some e → f b = indexFor (hashFunc e.1) t₀.capacity := by
    intro b e he
    have he' : t.info b = some e := he
    simp only [hf, he', map_some, getD_some]
  have hlt : ∀ b ∈ bs.flatten, f b < (Buckets.empty (2 * t.capacity) : Buckets ℕ).length := by
    intro b hb
    obtain ⟨e, he⟩ := isSome_iff_exists.1 ((h.live b).2 hb)
    have hcap₀ : t₀.capacity = 2 ^ (k + 1) := hcap
    rw [hfinfo b e he, Buckets.length_empty, hcap, hcap₀]
    exact indexFor_lt _ (k + 1)
  have hchains₀ : Chains t₀ (Buckets.empty (2 * t.capacity)) := by
    refine ⟨by simp [ht₀], fun i L x hL hx => ?_⟩
    obtain rfl := Buckets.getElem?_empty hL
    exact eq_of_mem_replicate (mem_of_getElem? hx)
  have hold : List.Forall₂ (fun x L => Seg t₀.next x L none) t.table bs := by
    refine forall₂_iff_get.2 ⟨h.chains.length.symm, fun i hi hi' => ?_⟩
    exact h.chains.seg i _ _ (getElem?_eq_getElem hi') (getElem?_eq_getElem hi)
  obtain ⟨t₁, bs₁, ht₁, hbs₁, hchains₁, hrel, hcount⟩ := hchains₀.rehash hfinfo hlt hold
    (by simp) h.nodup fun L hL => h.length_le hL
  have hperm : bs₁.flatten.Perm bs.flatten := by
    have hpush := Buckets.flatten_pushAll_perm hbs₁
    rwa [Buckets.flatten_empty, append_nil] at hpush
  refine ⟨{ t₁ with threshold := ⌊t₁.capacity * t₁.loadFactor⌋ }, bs₁, ?_, ⟨⟨k + 1, hrel.capacity.trans hcap⟩,
    ⟨hchains₁.length, hchains₁.seg⟩, ?_, hperm.nodup_iff.2 h.nodup, fun a => ?_, ?_, ?_,
    fun i a ha e he => ?_⟩, hm.congr hperm fun b _ => hrel.info b⟩
  · rw [ht₁]
    rfl
  · exact hrel.length.trans ((length_replicate ..).trans hrel.capacity.symm)
  · rw [hperm.mem_iff, ← h.live]
    exact Bool.eq_iff_iff.1 (congrArg Option.isSome (hrel.info a))
  · exact hrel.nodes.trans (h.nodes.trans hperm.length_eq.symm)
  · refine hcount.trans ?_
    rw [hperm.length_eq]
    exact Int.zero_add _
  · rcases (Buckets.mem_pushAll hbs₁).1 ha with ⟨-, rfl⟩ | hempty
    · have he' : t₀.info a = some e := (hrel.info a).symm.trans he
      rw [hfinfo a e he']
      exact congrArg _ hrel.capacity
    · exact absurd hempty Buckets.mem_empty

lemma Rep.resizeIfFull (hm : Holds t bs m) :
    ∃ t' bs', t.resizeIfFull hashFunc = some t' ∧ Rep hashFunc t' bs' ∧ Holds t' bs' m := by
  rw [HashTable.resizeIfFull]
  split_ifs
  · exact h.hashTableResize hm
  · exact ⟨t, bs, rfl, h, hm⟩

end

/-! ### A new table -/

lemma roundCapacity_spec (targetCapacity : ℤ) (n j : ℕ) :
    ∃ k, roundCapacity targetCapacity n (2 ^ j) = 2 ^ k ∧ (targetCapacity ≤ 2 ^ k ∨ k = j + n) ∧
      (k = j ∨ 2 ^ k < 2 * targetCapacity) := by
  induction n generalizing j with
  | zero => exact ⟨j, rfl, .inr rfl, .inl rfl⟩
  | succ n ih =>
    rw [roundCapacity]
    split_ifs with hlt
    · obtain ⟨k, hk, hle, hmin⟩ := ih (j + 1)
      refine ⟨k, by rw [← pow_succ, hk], hle.imp_right fun heq => by omega, .inr ?_⟩
      rcases hmin with rfl | hmin
      · push_cast at hlt
        rw [pow_succ]
        omega
      · exact hmin
    · refine ⟨j, rfl, .inl ?_, .inl rfl⟩
      push_cast at hlt
      omega

lemma allocHashTableBuckets_eq {capacity : ℕ} {size : ℤ}
    (h : Int.bmod (8 * (capacity : ℤ)) (2 ^ 32) = size) :
    allocHashTableBuckets capacity =
      if size < 0 then none else some (replicate (size.toNat / 8) none) := by
  subst h
  rfl

lemma allocHashTableBuckets_of_le {capacity : ℕ} (h : capacity ≤ 2 ^ 27) :
    allocHashTableBuckets capacity = some (replicate capacity none) := by
  have hslots : (8 * (capacity : ℤ)).toNat / 8 = capacity := by omega
  rw [allocHashTableBuckets_eq (Int.bmod_eq_of_le_mul_two (by omega) (by omega)),
    if_neg (by omega), hslots]

/-- An array of `2 ^ 28` slots or more does not have a size that is an `int`. -/
lemma allocHashTableBuckets_of_gt {k : ℕ} {table : List (Option ℕ)} (hk : 27 < k) (hk' : k ≤ 30)
    (h : allocHashTableBuckets (2 ^ k) = some table) : table = [] := by
  obtain rfl | rfl | rfl : k = 28 ∨ k = 29 ∨ k = 30 := by omega
  · have hnone : allocHashTableBuckets (2 ^ 28) = none := by decide
    exact absurd (hnone.symm.trans h) (by simp)
  · have hnil : allocHashTableBuckets (2 ^ 29) = some [] := by decide
    exact some.inj (h.symm.trans hnil)
  · have hnil : allocHashTableBuckets (2 ^ 30) = some [] := by decide
    exact some.inj (h.symm.trans hnil)

/-- **A new table** has all its slots if the initial capacity is at most `2 ^ 27`, and none
otherwise. -/
lemma hashTableInit_cases {initCapacity : ℤ} {loadFactor : ℚ}
    (h : hashTableInit initCapacity loadFactor = some t) :
    (t.heap = fun _ => none) ∧ t.nodes = 0 ∧ t.itemCount = 0 ∧ ∃ k, t.capacity = 2 ^ k ∧
      if initCapacity ≤ 2 ^ 27 then t.table = replicate (2 ^ k) none else t.table = [] := by
  by_cases hneg : initCapacity < 0 ∨ loadFactor < 0
  · rw [hashTableInit, if_pos hneg] at h
    exact absurd h (by simp)
  rw [hashTableInit, if_neg hneg] at h
  obtain ⟨table, htable, rfl⟩ := map_eq_some_iff.1 h
  refine ⟨rfl, rfl, rfl, ?_⟩
  dsimp only at htable ⊢
  set targetCapacity : ℤ :=
    if initCapacity = 0 then 2 ^ 4 else if 2 ^ 30 < initCapacity then 2 ^ 30 else initCapacity
    with htarget
  have hbounds : 1 ≤ targetCapacity ∧ targetCapacity ≤ 2 ^ 30 ∧
      (targetCapacity ≤ 2 ^ 27 ↔ initCapacity ≤ 2 ^ 27) := by
    rw [htarget]
    split_ifs <;> omega
  obtain ⟨k, hk, hle, hmin⟩ := roundCapacity_spec targetCapacity 31 0
  rw [pow_zero] at hk
  rw [hk] at htable ⊢
  -- the capacity is the first power of two that is large enough
  have hk30 : k ≤ 30 := by
    by_contra! hgt
    have hpow : (2 : ℤ) ^ 31 ≤ 2 ^ k := pow_le_pow_right₀ (by norm_num) hgt
    omega
  have hlarge : targetCapacity ≤ 2 ^ k := hle.resolve_right (by omega)
  refine ⟨k, rfl, ?_⟩
  split_ifs with hinit
  · have hk27 : k ≤ 27 := by
      by_contra! hgt
      have hpow : (2 : ℤ) ^ 28 ≤ 2 ^ k := pow_le_pow_right₀ (by norm_num) hgt
      omega
    have hpow : 2 ^ k ≤ 2 ^ 27 := Nat.pow_le_pow_right (by norm_num) hk27
    exact some.inj (htable.symm.trans (allocHashTableBuckets_of_le hpow))
  · refine allocHashTableBuckets_of_gt ?_ hk30 htable
    by_contra! hlt
    have hpow : (2 : ℤ) ^ k ≤ 2 ^ 27 := pow_le_pow_right₀ (by norm_num) hlt
    omega

lemma Rep.hashTableInit (hashFunc : List Byte → UInt32) {initCapacity : ℤ} {loadFactor : ℚ}
    (h : hashTableInit initCapacity loadFactor = some t) (hinit : initCapacity ≤ 2 ^ 27) :
    Rep hashFunc t (Buckets.empty t.capacity) ∧ Holds t (Buckets.empty t.capacity) ∅ := by
  obtain ⟨hheap, hnodes, hcount, k, hk, htable⟩ := hashTableInit_cases h
  rw [if_pos hinit, ← hk] at htable
  refine ⟨⟨⟨k, hk⟩, ⟨?_, fun i L x hL hx => ?_⟩, ?_, ?_, fun a => ?_, ?_, ?_, fun i a ha => ?_⟩, ?_⟩
  · rw [htable, Buckets.length_empty, length_replicate]
  · obtain rfl := Buckets.getElem?_empty hL
    rw [htable] at hx
    exact eq_of_mem_replicate (mem_of_getElem? hx)
  · rw [htable, length_replicate]
  · rw [Buckets.flatten_empty]
    exact nodup_nil
  · simp [info, hheap]
  · rw [hnodes, Buckets.flatten_empty, length_nil]
  · rw [hcount, Buckets.flatten_empty, length_nil, Nat.cast_zero]
  · exact absurd ha Buckets.mem_empty
  · rw [Holds, Buckets.flatten_empty]
    exact List.Perm.refl _

/-! ### Searching -/

/-- The node `a` has the key. -/
def HasKey (t : HashTable) (key : List Byte) (a : ℕ) : Prop := ∃ e ∈ t.info a, e.1 = key

lemma hasKey_iff {phd : HashData} (h : t.heap a = some phd) : t.HasKey key a ↔ phd.key = key := by
  simp [HasKey, info, h]

/-- If the search for the key finds a node, there is no node before it. -/
def AtFront (hashFunc : List Byte → UInt32) (key : List Byte) (t : HashTable) : Prop :=
  ∀ p ∈ t.search hashFunc key, p.2.isSome → p.1 = none

instance : Decidable (t.AtFront hashFunc key) :=
  inferInstanceAs (Decidable (∀ p ∈ t.search hashFunc key, p.2.isSome → p.1 = none))

/-- The nodes `P` at the front of the list do not have the key, and the one behind them has it. -/
lemma bucketSearch_eq {phdPre : Option ℕ} {P S : List ℕ} (hL : Seg t.next x (P ++ S) none)
    (hn : (P ++ S).length ≤ n) (hP : ∀ b ∈ P, ¬ t.HasKey key b) (hS : ∀ a ∈ S.head?, t.HasKey key a) :
    bucketSearch t.heap key n phdPre x = some (P.getLast?.or phdPre, S.head?) := by
  induction P generalizing x n phdPre with
  | nil =>
    cases S with
    | nil =>
      obtain rfl := Seg.nil_iff.1 hL
      cases n <;> rfl
    | cons a S =>
      obtain ⟨rfl, z, hz, -⟩ := hL
      obtain ⟨phd, hphd, -⟩ := map_eq_some_iff.1 hz
      obtain ⟨n, rfl⟩ := Nat.exists_eq_add_one.2 (lt_of_lt_of_le (Nat.succ_pos _) hn)
      rw [bucketSearch, hphd]
      exact if_pos ((hasKey_iff hphd).1 (hS a rfl))
  | cons b P ih =>
    obtain ⟨rfl, z, hz, hrest⟩ := hL
    obtain ⟨phd, hphd, rfl⟩ := map_eq_some_iff.1 hz
    have hkey : phd.key ≠ key := fun heq => hP b mem_cons_self ((hasKey_iff hphd).2 heq)
    obtain ⟨n, rfl⟩ := Nat.exists_eq_add_one.2 (lt_of_lt_of_le (Nat.succ_pos _) hn)
    rw [bucketSearch, hphd]
    dsimp only
    rw [if_neg hkey, ih hrest (Nat.le_of_succ_le_succ hn) fun c hc => hP c (mem_cons_of_mem b hc),
      getLast?_cons]
    cases P.getLast? <;> rfl

/-- **The search for a key** finds no node if no node has the key; otherwise it finds the first one of
the bucket, with the node before it. -/
lemma Rep.search_cases (h : Rep hashFunc t bs) (key : List Byte) :
    ((∀ a ∈ bs.flatten, ¬ t.HasKey key a) ∧ ∃ phdPre, t.search hashFunc key = some (phdPre, none)) ∨
    ∃ x P a S, t.table[t.bucketOf hashFunc key]? = some x ∧
      bs[t.bucketOf hashFunc key]? = some (P ++ a :: S) ∧ Seg t.next x (P ++ a :: S) none ∧
      t.HasKey key a ∧ t.search hashFunc key = some (P.getLast?, some a) := by
  have hi := h.bucketOf_lt key
  obtain ⟨x, hx⟩ : ∃ x, t.table[t.bucketOf hashFunc key]? = some x :=
    ⟨_, getElem?_eq_getElem (h.length.symm ▸ hi)⟩
  obtain ⟨L, hL⟩ : ∃ L, bs[t.bucketOf hashFunc key]? = some L :=
    ⟨_, getElem?_eq_getElem (h.length_eq.symm ▸ hi)⟩
  have hseg := h.chains.seg _ L x hL hx
  have hlen := h.length_le (mem_of_getElem? hL)
  obtain ⟨P, S, rfl, hP, hS⟩ : ∃ P S, L = P ++ S ∧ (∀ b ∈ P, ¬ t.HasKey key b) ∧
      ∀ a ∈ S.head?, t.HasKey key a := by
    classical
    refine ⟨_, _, (takeWhile_append_dropWhile (p := fun b => ¬ t.HasKey key b)).symm,
      fun b hb => by simpa using mem_takeWhile_imp hb, fun a ha => ?_⟩
    have hnot := head?_dropWhile_not (fun b => ¬ t.HasKey key b) L
    rw [mem_def.1 ha] at hnot
    simpa using hnot
  have hsearch : t.search hashFunc key = some (P.getLast?, S.head?) := by
    rw [search, hx, bind_some, bucketSearch_eq hseg hlen hP hS, or_none]
  cases S with
  | cons a S => exact .inr ⟨x, P, a, S, hx, hL, hseg, hS a rfl, hsearch⟩
  | nil =>
    refine .inl ⟨fun a ha hka => hP a ?_ hka, _, hsearch⟩
    -- a node with the key would be in this bucket
    obtain ⟨i, hmem⟩ := Buckets.mem_flatten.1 ha
    obtain ⟨e, he, rfl⟩ := hka
    have hhome := h.home i a hmem e he
    obtain ⟨M, hM, haM⟩ := hmem
    rw [← hhome] at hM
    obtain rfl : M = P ++ [] := some.inj (hM.symm.trans hL)
    simpa using haM

/-! ### The entries of a table -/

lemma Holds.mem_iff (hm : Holds t bs m) : key ∈ m ↔ ∃ a ∈ bs.flatten, t.HasKey key a := by
  rw [AList.mem_keys, AList.keys, List.keys, ← (hm.map Sigma.fst).mem_iff, List.mem_map]
  simp only [mem_filterMap]
  constructor
  · rintro ⟨e, ⟨a, ha, he⟩, rfl⟩
    exact ⟨a, ha, e, he, rfl⟩
  · rintro ⟨a, ha, e, he, rfl⟩
    exact ⟨e, ⟨a, ha, he⟩, rfl⟩

lemma Holds.erase_absent (hm : Holds t bs m) (hno : ∀ a ∈ bs.flatten, ¬ t.HasKey key a) :
    Holds t bs (m.erase key) := by
  have hkey : key ∉ m := fun hmem => by
    obtain ⟨a, ha, hka⟩ := hm.mem_iff.1 hmem
    exact hno a ha hka
  have hentries : (m.erase key).entries = m.entries := kerase_of_notMem_keys hkey
  rw [Holds, hentries]
  exact hm

lemma Rep.count_eq (h : Rep hashFunc t bs) (hm : Holds t bs m) : t.itemCount = m.keys.length := by
  have hlive : ∀ a ∈ bs.flatten, (t.info a).isSome := fun a ha => (h.live a).2 ha
  rw [h.count, AList.keys, List.keys, length_map, ← hm.length_eq,
    length_filterMap_eq_countP, countP_eq_length.2 hlive]

lemma Rep.hashTableGet_eq (h : Rep hashFunc t bs) (hm : Holds t bs m) (key : List Byte) :
    (t.hashTableGet hashFunc key).map (Option.map HashData.value) = some (m.lookup key) := by
  rcases h.search_cases key with ⟨hno, phdPre, hsearch⟩ | ⟨x, P, a, S, -, hb, -, hkey, hsearch⟩
  · have hnone : m.lookup key = none := AList.lookup_eq_none.2 fun hmem => by
      obtain ⟨a, ha, hka⟩ := hm.mem_iff.1 hmem
      exact hno a ha hka
    rw [hashTableGet, hsearch, hnone]
    rfl
  · obtain ⟨e, he, rfl⟩ := hkey
    obtain ⟨phd, hphd, rfl⟩ := map_eq_some_iff.1 he
    have ha : a ∈ bs.flatten := mem_flatten_of_mem (mem_of_getElem? hb) (by simp)
    have hmem : (⟨phd.key, phd.value⟩ : Σ _ : List Byte, List Byte) ∈ m.entries :=
      List.Perm.mem_iff hm |>.1 (mem_filterMap.2 ⟨a, ha, he⟩)
    rw [hashTableGet, hsearch, bind_some]
    dsimp only
    rw [hphd, mem_def.1 (AList.mem_lookup_iff.2 hmem)]
    rfl

/-! ### Deleting a node -/

lemma deleteNode_front_eq {phd : HashData} (h : t.heap a = some phd) : t.deleteNode i none a = some
      { t with
        table := t.table.set i phd.next
        heap := update t.heap a none
        nodes := t.nodes - 1
        itemCount := t.itemCount - 1 } := by
  rw [deleteNode, h]
  rfl

/-- **Deleting the node at the front of its list** takes it off, and its key is no longer in the
map. -/
lemma Rep.deleteNode_front {S : List ℕ} (h : Rep hashFunc t bs) (hm : Holds t bs m)
    (hx : t.table[i]? = some x) (hb : bs[i]? = some (a :: S)) (hkey : t.HasKey key a) :
    ∃ t', t.deleteNode i none a = some t' ∧ Rep hashFunc t' (bs.set i S) ∧
      Holds t' (bs.set i S) (m.erase key) := by
  obtain ⟨rfl, z, hz, hS⟩ := h.chains.seg i _ x hb hx
  obtain ⟨phd, hphd, rfl⟩ := map_eq_some_iff.1 hz
  have hperm := Buckets.flatten_set_tail_perm hb
  have hlen : (bs.set i S).flatten.length + 1 = bs.flatten.length := hperm.length_eq
  have hnodup := nodup_cons.1 (hperm.nodup_iff.2 h.nodup)
  obtain ⟨hi, -⟩ := List.getElem?_eq_some_iff.1 hb
  refine ⟨_, deleteNode_front_eq hphd, ?_⟩
  set t' : HashTable := { t with
    table := t.table.set i phd.next
    heap := update t.heap a none
    nodes := t.nodes - 1
    itemCount := t.itemCount - 1 } with ht'
  -- the nodes that stay are as they were
  have hheap {b : ℕ} (hba : b ≠ a) : t'.heap b = t.heap b := update_of_ne hba _ _
  have hinfo {b : ℕ} (hba : b ≠ a) : t'.info b = t.info b := congrArg (Option.map _) (hheap hba)
  have hne {b : ℕ} (hmem : b ∈ (bs.set i S).flatten) : b ≠ a := ne_of_mem_of_not_mem hmem hnodup.1
  have hnext {L : List ℕ} (hL : L ∈ bs.set i S) (b : ℕ) (hbL : b ∈ L) : t'.next b = t.next b :=
    next_congr (hheap (hne (mem_flatten_of_mem hL hbL)))
  have hchains : Chains t' (bs.set i S) := by
    refine h.chains.set hi rfl (hS.congr (hnext (mem_set hi S))) fun j L hij hL => ?_
    refine hnext (mem_of_getElem? (i := j) ?_)
    rw [getElem?_set_ne hij, hL]
  refine ⟨⟨h.pow, hchains, by simpa [ht'] using h.length, hnodup.2, fun b => ?_, ?_, ?_,
    fun j b hmem e he => ?_⟩, ?_⟩
  · by_cases hba : b = a
    · subst hba
      simpa [info, ht'] using hnodup.1
    · have hmem : b ∈ bs.flatten ↔ b ∈ (bs.set i S).flatten := by
        rw [← hperm.mem_iff, mem_cons, or_iff_right hba]
      rw [← hmem, ← h.live, hinfo hba]
  · have hnodes := h.nodes
    have hnodes' : t'.nodes = t.nodes - 1 := rfl
    omega
  · have hcount := h.count
    have hcount' : t'.itemCount = t.itemCount - 1 := rfl
    omega
  · rw [hinfo (hne (Buckets.mem_flatten.2 ⟨j, hmem⟩))] at he
    exact h.home j b (Buckets.mem_of_mem_set hb (subset_cons_self a S) hmem) e he
  · obtain ⟨e, he, rfl⟩ := hkey
    have hentries : (e :: (bs.set i S).flatten.filterMap t.info).Perm m.entries := by
      have hm' := (hperm.filterMap t.info).trans hm
      rwa [filterMap_cons_some he] at hm'
    have herase := (hentries.symm.kerase (a := e.1) m.nodupKeys).symm
    rw [kerase_cons_eq rfl] at herase
    rw [Holds, filterMap_congr fun b hmem => hinfo (hne hmem)]
    exact herase

/-- **Deleting a key** whose node, if there is one, is at the front of its list. -/
lemma Rep.hashTableDelete_front (h : Rep hashFunc t bs) (hm : Holds t bs m)
    (hfront : t.AtFront hashFunc key) :
    ∃ found t' bs', t.hashTableDelete hashFunc key = some (found, t') ∧ Rep hashFunc t' bs' ∧
      Holds t' bs' (m.erase key) := by
  rcases h.search_cases key with ⟨hno, phdPre, hsearch⟩ | ⟨x, P, a, S, hx, hb, -, hkey, hsearch⟩
  · refine ⟨false, t, bs, ?_, h, hm.erase_absent hno⟩
    rw [hashTableDelete, hsearch]
    rfl
  · have hP : P.getLast? = none := hfront _ hsearch rfl
    obtain rfl := getLast?_eq_none_iff.1 hP
    obtain ⟨t', ht', hrep, hholds⟩ := h.deleteNode_front hm hx hb hkey
    refine ⟨true, t', _, ?_, hrep, hholds⟩
    rw [hashTableDelete, hsearch, bind_some]
    dsimp only
    rw [hP, ht']
    rfl

lemma beforeMalloc_eq {found : Bool} {t₁ t₂ : HashTable} (ht₁ : t.resizeIfFull hashFunc = some t₁)
    (ht₂ : t₁.hashTableDelete hashFunc key = some (found, t₂)) :
    t.beforeMalloc hashFunc key = some t₂ := by
  rw [beforeMalloc, ht₁, bind_some, ht₂]
  rfl

/-! ### A new node -/

/-- **A new node** is pushed to the front of the list of its key, which gets a new value. -/
lemma Rep.newNode (h : Rep hashFunc t bs) (value : List Byte) (hm : Holds t bs (m.erase key))
    (ha : t.heap a = none) :
    ∃ t' bs', (t.newNode a key value).addNode (t.bucketOf hashFunc key) a = some t' ∧
      Rep hashFunc t' bs' ∧ Holds t' bs' (m.insert key value) := by
  set t₁ := t.newNode a key value with ht₁
  have hnew : a ∉ bs.flatten := fun hmem => by
    have hlive := (h.live a).2 hmem
    rw [info, ha] at hlive
    exact absurd hlive (by simp)
  have hheap {b : ℕ} (hba : b ≠ a) : t₁.heap b = t.heap b := update_of_ne hba _ _
  have hinfo {b : ℕ} (hba : b ≠ a) : t₁.info b = t.info b := congrArg (Option.map _) (hheap hba)
  have hinfoa : t₁.info a = some ⟨key, value⟩ := by simp [info, ht₁, HashTable.newNode]
  have hne {b : ℕ} (hmem : b ∈ bs.flatten) : b ≠ a := ne_of_mem_of_not_mem hmem hnew
  have hchains : Chains t₁ bs := ⟨h.chains.length, fun j L y hL hy =>
    (h.chains.seg j L y hL hy).congr fun b hbL =>
      next_congr (hheap (hne (mem_flatten_of_mem (mem_of_getElem? hL) hbL)))⟩
  have hsome : (t₁.heap a).isSome := by simp [ht₁, HashTable.newNode]
  have hi : t.bucketOf hashFunc key < bs.length := h.length_eq.symm ▸ h.bucketOf_lt key
  obtain ⟨t', bs', ht', hbs', hchains', hrel, -, hcount⟩ := hchains.addNode hsome hnew hi
  have hperm := Buckets.flatten_push_perm hbs'
  have hlen : bs'.flatten.length = bs.flatten.length + 1 := hperm.length_eq
  have hcapacity : t'.capacity = t.capacity := hrel.capacity
  refine ⟨t', bs', ht', ⟨hcapacity ▸ h.pow, hchains', ?_, ?_, fun b => ?_, ?_, ?_,
    fun j b hmem e he => ?_⟩, ?_⟩
  · rw [hcapacity, ← h.length]
    exact hrel.length
  · exact hperm.nodup_iff.2 (nodup_cons.2 ⟨hnew, h.nodup⟩)
  · rw [hrel.info, hperm.mem_iff, mem_cons]
    by_cases hba : b = a
    · subst hba
      simp [hinfoa]
    · rw [hinfo hba, h.live, or_iff_right hba]
  · have hnodes : t'.nodes = t.nodes + 1 := hrel.nodes
    rw [hnodes, h.nodes, hlen]
  · have hcount' : t₁.itemCount = t.itemCount := rfl
    rw [hcount, hcount', h.count, hlen]
    omega
  · rw [hrel.info] at he
    rw [hcapacity]
    rcases (Buckets.mem_push hbs').1 hmem with ⟨rfl, rfl⟩ | hold
    · rw [hinfoa] at he
      obtain rfl := some.inj he
      rfl
    · rw [hinfo (hne (Buckets.mem_flatten.2 ⟨j, hold⟩))] at he
      exact h.home j b hold e he
  · have hentries : (bs.flatten.filterMap t'.info) = bs.flatten.filterMap t.info :=
      filterMap_congr fun b hmem => (hrel.info b).trans (hinfo (hne hmem))
    have hpush := hperm.filterMap t'.info
    rw [filterMap_cons_some ((hrel.info a).trans hinfoa), hentries] at hpush
    exact hpush.trans (hm.cons _)

/-! ### A node behind the front -/

/-- The list of the slot `i` leads to the node `a`, which has been freed. -/
structure Dangling (t : HashTable) (i a : ℕ) (x : Option ℕ) (P : List ℕ) : Prop where
  slot : t.table[i]? = some x
  seg : Seg t.next x P (some a)
  freed : t.heap a = none

lemma Dangling.not_ends {P : List ℕ} (h : Dangling t i a x P) : ¬ Seg t.next x L none :=
  h.seg.not_ends_of_freed (congrArg (Option.map HashData.next) h.freed)

lemma Rep.hashTableDelete_behind (h : Rep hashFunc t bs) (hfront : ¬ t.AtFront hashFunc key) :
    ∃ t' a x P, t.hashTableDelete hashFunc key = some (true, t') ∧
      Dangling t' (t.bucketOf hashFunc key) a x P ∧ t'.capacity = t.capacity := by
  rcases h.search_cases key with ⟨-, phdPre, hsearch⟩ | ⟨x, P, a, S, hx, -, hseg, -, hsearch⟩
  · refine absurd (fun p hp hfound => ?_) hfront
    obtain rfl := some.inj (hsearch.symm.trans hp)
    exact absurd hfound (by simp)
  · obtain ⟨b, hlast⟩ : ∃ b, P.getLast? = some b := by
      refine ne_none_iff_exists'.1 fun hnone => hfront fun p hp _ => ?_
      obtain rfl := some.inj (hsearch.symm.trans hp)
      exact hnone
    have hnotMem : a ∉ P := fun hmem =>
      (nodup_append.1 hseg.nodup).2.2 a hmem a mem_cons_self rfl
    obtain ⟨y, hP, rfl, z, hz, -⟩ := Seg.append_iff.1 hseg
    obtain ⟨phd, hphd, -⟩ := map_eq_some_iff.1 hz
    refine ⟨({ t with itemCount := t.itemCount - 1 } : HashTable).freeHashData a, a, x, P, ?_,
      ⟨hx, ?_, ?_⟩, rfl⟩
    · rw [hashTableDelete, hsearch, hlast, bind_some]
      dsimp only
      rw [deleteNode, hphd]
      rfl
    · refine hP.congr fun b hb => next_congr ?_
      exact update_of_ne (ne_of_mem_of_not_mem hb hnotMem) _ _
    · exact update_self ..

/-- **A new node in front of a freed one.** If it has the address of the freed node the list is a
circle. -/
lemma Dangling.newNode {P : List ℕ} {b : ℕ} (h : Dangling t i a x P) (key value : List Byte)
    (hb : t.heap b = none) :
    ∃ t' y, (t.newNode b key value).addNode i b = some t' ∧ t'.table[i]? = some y ∧
      t'.capacity = t.capacity ∧ ∀ L, ¬ Seg t'.next y L none := by
  obtain ⟨hi, -⟩ := List.getElem?_eq_some_iff.1 h.slot
  have hslot : (t.newNode b key value).table[i]? = some x := h.slot
  have hself : (t.newNode b key value).heap b = some ⟨key, value, none⟩ := update_self ..
  refine ⟨_, some b, addNode_eq hself hslot, getElem?_set_self hi, rfl, fun L hL => ?_⟩
  -- no node of the old list is at the address of the new one
  have hnotMem : b ∉ P := fun hmem => by
    have hnone : t.next b = none := congrArg (Option.map HashData.next) hb
    exact absurd hnone (h.seg.next_ne_none hmem)
  set heap : ℕ → Option HashData := update (update t.heap b (some ⟨key, value, none⟩))
    b (some ⟨key, value, x⟩) with hheap
  have hframe : ∀ d, d ≠ b → heap d = t.heap d := fun d hd => by
    rw [hheap, update_of_ne hd, update_of_ne hd]
  have hfirst : (heap b).map HashData.next = some x := by rw [hheap, update_self]; rfl
  have hseg : Seg (fun d => (heap d).map HashData.next) x P (some a) := h.seg.congr fun d hd =>
    congrArg (Option.map HashData.next) (hframe d (ne_of_mem_of_not_mem hd hnotMem))
  have hcons : Seg (fun d => (heap d).map HashData.next) (some b) (b :: P) (some a) :=
    ⟨rfl, x, hfirst, hseg⟩
  by_cases hab : a = b
  · subst hab
    exact hcons.not_ends_of_cycle (cons_ne_nil _ _) hL
  · exact hcons.not_ends_of_freed
      (congrArg (Option.map HashData.next) ((hframe a hab).trans h.freed)) hL

end HashTable

end Lfs.Common
