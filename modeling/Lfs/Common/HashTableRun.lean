/-
Runs of the hash table against a finite map.

The operations `put` and `delete` run on the table and on the map.  A step that finds the node of its
key at the front of a bucket, or finds none, keeps the table equal to the map.  A step that finds it
behind the front leaves a bucket that can not be walked to its end.  So the table is the map all along a
run exactly if every node is found at the front, given that the array of the first table has its slots.
-/
import Lfs.Common.HashTableSpec
import Lfs.Lib.Run

namespace Lfs.Common

open Lfs.Lib Option HashTable

/-- A call of `hash_table_put`, with the address that `malloc` returns for the node, or of
`hash_table_delete`. -/
inductive TableOp where
  | put (key value : List Byte) (a : ℕ)
  | delete (key : List Byte)

namespace TableOp

variable (hashFunc : List Byte → UInt32)

def key : TableOp → List Byte
  | put key _ _ => key
  | delete key => key

def exec : TableOp → HashTable → Option HashTable
  | put key value a, t => t.hashTablePut hashFunc key value a
  | delete key, t => (t.hashTableDelete hashFunc key).map Prod.snd

def apply : TableOp → HashTable.ByteMap → HashTable.ByteMap
  | put key value _, m => m.insert key value
  | delete key, m => m.erase key

/-- The table in which the call searches for the key. -/
def searched : TableOp → HashTable → Option HashTable
  | put _ _ _, t => t.resizeIfFull hashFunc
  | delete _, t => some t

/-- The address of a new node is not in use. -/
def Allocates : TableOp → HashTable → Prop
  | put key _ a, t => ∀ t' ∈ t.beforeMalloc hashFunc key, t'.heap a = none
  | delete _, _ => True

/-- If the call finds a node, there is no node before it. -/
def AtFront (op : TableOp) (t : HashTable) : Prop :=
  ∀ t' ∈ op.searched hashFunc t, t'.AtFront hashFunc op.key

instance : ∀ (op : TableOp) (t : HashTable), Decidable (op.Allocates hashFunc t)
  | put key _ a, t =>
    inferInstanceAs (Decidable (∀ t' ∈ t.beforeMalloc hashFunc key, t'.heap a = none))
  | delete _, _ => isTrue trivial

instance (op : TableOp) (t : HashTable) : Decidable (op.AtFront hashFunc t) :=
  inferInstanceAs (Decidable (∀ t' ∈ op.searched hashFunc t, t'.AtFront hashFunc op.key))

end TableOp

/-- The table and the map are the same: a lookup returns the value of the map, a walk through a bucket
goes over nodes that are allocated and ends, and the count is the number of keys. -/
structure HashTable.Agrees (hashFunc : List Byte → UInt32) (t : HashTable) (m : HashTable.ByteMap) :
    Prop where
  get : ∀ key, (t.hashTableGet hashFunc key).map (Option.map HashData.value) = some (m.lookup key)
  walk : ∀ i < t.capacity, ∃ x L, t.table[i]? = some x ∧ Seg t.next x L none
  count : t.hashTableCount = m.keys.length

/-- A table, or `none` after an operation that has used memory that is not allocated or has not ended,
with the map. -/
abbrev TableState : Type := Option HashTable × HashTable.ByteMap

namespace TableState

variable (hashFunc : List Byte → UInt32) {s : TableState} {op : TableOp}

/-- The state after `hash_table_init`. -/
def init (initCapacity : ℤ) (loadFactor : ℚ) : TableState :=
  (hashTableInit initCapacity loadFactor, ∅)

def step (s : TableState) (op : TableOp) : TableState :=
  (s.1.bind (op.exec hashFunc), op.apply s.2)

/-- The table is the map. -/
def Refines (s : TableState) : Prop := ∃ t, s.1 = some t ∧ t.Agrees hashFunc s.2

/-- The table is the map after `hash_table_init` and after every call. -/
def RefinesAlong (s : TableState) (ops : List TableOp) : Prop :=
  s.Refines hashFunc ∧ Along (step hashFunc) (fun _ _ s' => s'.Refines hashFunc) s ops

/-- The allocator never returns an address that is in use. -/
def AllocatesAlong (s : TableState) (ops : List TableOp) : Prop :=
  Along (step hashFunc) (fun s op _ => ∀ t ∈ s.1, op.Allocates hashFunc t) s ops

/-- Every call finds the node of its key at the front of its bucket, or finds none. -/
def AtFrontAlong (s : TableState) (ops : List TableOp) : Prop :=
  Along (step hashFunc) (fun s op _ => ∀ t ∈ s.1, op.AtFront hashFunc t) s ops

instance (s : TableState) (ops : List TableOp) : Decidable (s.AllocatesAlong hashFunc ops) :=
  inferInstanceAs (Decidable (Along (step hashFunc) _ s ops))

instance (s : TableState) (ops : List TableOp) : Decidable (s.AtFrontAlong hashFunc ops) :=
  inferInstanceAs (Decidable (Along (step hashFunc) _ s ops))

/-- The lists of nodes hold the entries of the map. -/
def Inv (s : TableState) : Prop :=
  ∃ t bs, s.1 = some t ∧ HashTable.Rep hashFunc t bs ∧ HashTable.Holds t bs s.2

variable {hashFunc}

lemma Inv.refines (h : s.Inv hashFunc) : s.Refines hashFunc := by
  obtain ⟨t, bs, hs, hrep, hm⟩ := h
  refine ⟨t, hs, hrep.hashTableGet_eq hm, fun i hi => ?_, hrep.count_eq hm⟩
  have htable : i < t.table.length := hrep.length.symm ▸ hi
  have hbs : i < bs.length := hrep.length_eq.symm ▸ hi
  exact ⟨_, _, List.getElem?_eq_getElem htable, hrep.chains.seg i _ _
    (List.getElem?_eq_getElem hbs) (List.getElem?_eq_getElem htable)⟩

lemma Inv.step (h : s.Inv hashFunc) (halloc : ∀ t ∈ s.1, op.Allocates hashFunc t)
    (hfront : ∀ t ∈ s.1, op.AtFront hashFunc t) : (s.step hashFunc op).Inv hashFunc := by
  obtain ⟨t, bs, hs, hrep, hm⟩ := h
  have halloc := halloc t hs
  have hfront := hfront t hs
  cases op with
  | put key value a =>
    obtain ⟨t₁, bs₁, ht₁, hrep₁, hm₁⟩ := hrep.resizeIfFull hm
    have hfront₁ : t₁.AtFront hashFunc key := hfront t₁ ht₁
    obtain ⟨found, t₂, bs₂, ht₂, hrep₂, hm₂⟩ := hrep₁.hashTableDelete_front hm₁ hfront₁
    have hbefore := beforeMalloc_eq ht₁ ht₂
    obtain ⟨t₃, bs₃, ht₃, hrep₃, hm₃⟩ := hrep₂.newNode value hm₂ (halloc t₂ hbefore)
    refine ⟨t₃, bs₃, ?_, hrep₃, hm₃⟩
    rw [TableState.step, hs, bind_some, TableOp.exec, hashTablePut, hbefore, bind_some, ht₃]
  | delete key =>
    have hfront₁ : t.AtFront hashFunc key := hfront t rfl
    obtain ⟨found, t₁, bs₁, ht₁, hrep₁, hm₁⟩ := hrep.hashTableDelete_front hm hfront₁
    refine ⟨t₁, bs₁, ?_, hrep₁, hm₁⟩
    rw [TableState.step, hs, bind_some, TableOp.exec, ht₁]
    rfl

lemma not_refines {t : HashTable} {x : Option ℕ} {i : ℕ} (hs : s.1 = some t) (hi : i < t.capacity)
    (hx : t.table[i]? = some x) (hno : ∀ L, ¬ Seg t.next x L none) : ¬ s.Refines hashFunc := by
  rintro ⟨t', hs', hagrees⟩
  obtain rfl : t' = t := some.inj (hs'.symm.trans hs)
  obtain ⟨y, L, hy, hL⟩ := hagrees.walk i hi
  obtain rfl : y = x := some.inj (hy.symm.trans hx)
  exact hno L hL

/-- A step that finds the node of its key behind the front. -/
lemma Inv.not_refines_step (h : s.Inv hashFunc) (halloc : ∀ t ∈ s.1, op.Allocates hashFunc t)
    (hbehind : ¬ ∀ t ∈ s.1, op.AtFront hashFunc t) : ¬ (s.step hashFunc op).Refines hashFunc := by
  obtain ⟨t, bs, hs, hrep, hm⟩ := h
  have halloc := halloc t hs
  have hbehind : ¬ op.AtFront hashFunc t := fun hfront => hbehind fun t' ht' => by
    obtain rfl : t' = t := some.inj (ht'.symm.trans hs)
    exact hfront
  cases op with
  | put key value a =>
    obtain ⟨t₁, bs₁, ht₁, hrep₁, -⟩ := hrep.resizeIfFull hm
    have hbehind₁ : ¬ t₁.AtFront hashFunc key := fun hfront => hbehind fun t' ht' => by
      obtain rfl : t' = t₁ := some.inj (ht'.symm.trans ht₁)
      exact hfront
    obtain ⟨t₂, b, x, P, ht₂, hdangling, hcapacity⟩ := hrep₁.hashTableDelete_behind hbehind₁
    have hbefore := beforeMalloc_eq ht₁ ht₂
    have hbucket : t₂.bucketOf hashFunc key = t₁.bucketOf hashFunc key :=
      congrArg (indexFor (hashFunc key)) hcapacity
    obtain ⟨t₃, y, ht₃, hy, hcapacity₃, hno⟩ :=
      hdangling.newNode key value (halloc t₂ hbefore)
    refine not_refines (t := t₃) ?_ ?_ hy hno
    · rw [TableState.step, hs, bind_some, TableOp.exec, hashTablePut, hbefore,
        bind_some, hbucket, ht₃]
    · rw [hcapacity₃, hcapacity]
      exact hrep₁.bucketOf_lt key
  | delete key =>
    have hbehind₁ : ¬ t.AtFront hashFunc key := fun hfront => hbehind fun t' ht' => by
      obtain rfl := some.inj ht'
      exact hfront
    obtain ⟨t₁, b, x, P, ht₁, hdangling, hcapacity⟩ := hrep.hashTableDelete_behind hbehind₁
    refine not_refines (t := t₁) ?_ ?_ hdangling.slot fun L => hdangling.not_ends
    · rw [TableState.step, hs, bind_some, TableOp.exec, ht₁]
      rfl
    · rw [hcapacity]
      exact hrep.bucketOf_lt key

lemma Refines.get (h : s.Refines hashFunc) (key : List Byte) :
    (s.1.bind (hashTableGet hashFunc key)).map (Option.map HashData.value) =
      some (s.2.lookup key) := by
  obtain ⟨t, hs, hagrees⟩ := h
  rw [hs, bind_some, hagrees.get]

lemma not_refines_init {initCapacity : ℤ} {loadFactor : ℚ} (hlarge : ¬ initCapacity ≤ 2 ^ 27) :
    ¬ (init initCapacity loadFactor).Refines hashFunc := by
  rintro ⟨t, hs, hagrees⟩
  obtain ⟨-, -, -, k, hk, htable⟩ := hashTableInit_cases hs
  rw [if_neg hlarge] at htable
  obtain ⟨x, L, hx, -⟩ := hagrees.walk 0 (hk ▸ Nat.two_pow_pos k)
  rw [htable] at hx
  exact absurd hx (by simp)

/-- **The hash table is a finite map exactly if every node is found at the front of its bucket.** Let
the table be accepted by `hash_table_init`, and let `malloc` never return an address that is in use.
Then all along the run every lookup returns the last value that was put, every bucket can be walked and
the count is the number of keys, if and only if the initial capacity is at most `2 ^ 27` and no call
finds the node of its key behind another node. -/
theorem refines_map_iff (hashFunc : List Byte → UInt32) (initCapacity : ℤ) (loadFactor : ℚ)
    (ops : List TableOp) (hinit : (hashTableInit initCapacity loadFactor).isSome)
    (halloc : (init initCapacity loadFactor).AllocatesAlong hashFunc ops) :
    (init initCapacity loadFactor).RefinesAlong hashFunc ops ↔
      initCapacity ≤ 2 ^ 27 ∧ (init initCapacity loadFactor).AtFrontAlong hashFunc ops := by
  by_cases hsmall : initCapacity ≤ 2 ^ 27
  · obtain ⟨t, ht⟩ := isSome_iff_exists.1 hinit
    obtain ⟨hrep, hm⟩ := HashTable.Rep.hashTableInit hashFunc ht hsmall
    have hinv : (init initCapacity loadFactor).Inv hashFunc := ⟨t, _, ht, hrep, hm⟩
    rw [RefinesAlong, and_iff_right hinv.refines, and_iff_right hsmall]
    refine (Along.iff_of_inv hinv halloc (fun s op hs halloc => ?_)
      fun s op hs halloc hfront => hs.step halloc hfront).symm
    constructor
    · intro hfront
      exact (hs.step halloc hfront).refines
    · intro hrefines
      by_contra hbehind
      exact hs.not_refines_step halloc hbehind hrefines
  · constructor
    · rintro ⟨hstart, -⟩
      exact absurd hstart (not_refines_init hsmall)
    · rintro ⟨hle, -⟩
      exact absurd hle hsmall

/-- With one bucket, two keys of which the second one is put again and deleted. -/
theorem refines_map_secondKey : (init 1 (3 / 4)).RefinesAlong (fun _ => 0)
      [.put [1] [10] 0, .put [2] [20] 1, .put [2] [21] 2, .delete [2]] :=
  (refines_map_iff (fun _ => 0) 1 (3 / 4) _ (by decide +kernel) (by decide +kernel)).2
    ⟨by decide, by decide +kernel⟩

/-- Two keys with the same hash, of which the first one is deleted.  Its node is behind the other one:
the lookup of the key reads it after it has been freed. -/
theorem refines_map_firstKey_not : (hashTableInit 16 (3 / 4)).isSome ∧
    (init 16 (3 / 4)).AllocatesAlong (fun _ => 0)
      [.put [1] [10] 0, .put [2] [20] 1, .delete [1]] ∧
    ¬ (init 16 (3 / 4)).RefinesAlong (fun _ => 0)
      [.put [1] [10] 0, .put [2] [20] 1, .delete [1]] := by
  refine ⟨by decide +kernel, by decide +kernel, fun h => ?_⟩
  obtain ⟨-, -, -, hdeleted, -⟩ := h
  exact absurd (hdeleted.get [1]) (by decide +kernel)

end TableState

end Lfs.Common
