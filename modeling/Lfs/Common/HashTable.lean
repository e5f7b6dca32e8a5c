/-
The hash table of byte strings (`hash_table.c`).

The nodes are cells of a heap and the buckets are lists of nodes, linked by their pointers.  A node can
be freed while it is linked, and `malloc` may give its address out again; so the address of a new node
is an argument of `hash_table_put`, and a result `none` means that memory was used that is not
allocated, or that a loop does not end.

`DELETE_NODE_FROM_HASHTABLE` takes a node out of the front of its bucket.  Behind the front it assigns
to the local variable `phd_pre`, and the node stays linked.
-/
import Lfs.Base.CString
import Lfs.Lib.Seg
import Mathlib.Data.Rat.Floor

namespace Lfs.Common

open Lfs.Lib

/-- `hash_data`; `key_len` and `value_len` are the lengths of the lists. -/
structure HashData where
  key : List Byte
  value : List Byte
  next : Option ℕ
deriving DecidableEq

/-- `hash_table`, with the heap of its nodes. -/
structure HashTable where
  /-- The slots of the allocated array. -/
  table : List (Option ℕ)
  heap : ℕ → Option HashData
  /-- The number of nodes in the heap: a list through them that is longer does not end. -/
  nodes : ℕ
  itemCount : ℤ
  capacity : ℕ
  loadFactor : ℚ
  threshold : ℤ

def indexFor (h : UInt32) (length : ℕ) : ℕ := h.toNat &&& (length - 1)

namespace HashTable

variable (hashFunc : List Byte → UInt32)

/-- The pointer `next` of a node. -/
def next (t : HashTable) (a : ℕ) : Option (Option ℕ) := (t.heap a).map HashData.next

/-! ### Nodes -/

/-- `ADD_NODE_TO_HASHTABLE` with the slot `i` and the node `a`. -/
def addNode (i a : ℕ) (t : HashTable) : Option HashTable := do
  let phd ← t.heap a
  let head ← t.table[i]?
  some { t with
    heap := Function.update t.heap a (some { phd with next := head })
    table := t.table.set i (some a)
    itemCount := t.itemCount + 1 }

def freeHashData (a : ℕ) (t : HashTable) : HashTable :=
  { t with heap := Function.update t.heap a none, nodes := t.nodes - 1 }

/-- `DELETE_NODE_FROM_HASHTABLE` with the slot `i`. -/
def deleteNode (i : ℕ) (phdPre : Option ℕ) (phdBucket : ℕ) (t : HashTable) : Option HashTable := do
  let phd ← t.heap phdBucket
  let table := match phdPre with
    | none => t.table.set i phd.next
    -- only the variable `phd_pre` is assigned to
    | some _ => t.table
  some ({ t with table := table, itemCount := t.itemCount - 1 }.freeHashData phdBucket)

/-- The search loop of `_bucket_add_entry` and of `hash_table_delete`: `phd_pre` and `phd_bucket` at
its end.  The loop of `_bucket_find_entry` is the same without `phd_pre`. -/
def bucketSearch (heap : ℕ → Option HashData) (key : List Byte) :
    ℕ → Option ℕ → Option ℕ → Option (Option ℕ × Option ℕ)
  | _, phdPre, none => some (phdPre, none)
  | 0, _, some _ => none
  | n + 1, phdPre, some a =>
    match heap a with
    | none => none
    | some phd =>
      if phd.key = key then some (phdPre, some a) else bucketSearch heap key n (some a) phd.next

def bucketOf (key : List Byte) (t : HashTable) : ℕ := indexFor (hashFunc key) t.capacity

def search (key : List Byte) (t : HashTable) : Option (Option ℕ × Option ℕ) :=
  t.table[t.bucketOf hashFunc key]?.bind (bucketSearch t.heap key t.nodes none)

/-! ### The size of the table -/

/-- `while(capacity < target_capacity) capacity <<= 1`, at most `n` times. -/
def roundCapacity (targetCapacity : ℤ) : ℕ → ℕ → ℕ
  | 0, capacity => capacity
  | n + 1, capacity =>
    if capacity < targetCapacity then roundCapacity targetCapacity n (capacity * 2) else capacity

/-- `_alloc_hash_table_buckets`: the slots of the array.  The size in bytes is an `int`; `malloc` fails
for the huge size that a negative one is converted to. -/
def allocHashTableBuckets (capacity : ℕ) : Option (List (Option ℕ)) :=
  let size := Int.bmod (8 * capacity) (2 ^ 32)
  if size < 0 then none else some (List.replicate (size.toNat / 8) none)

/-- `hash_table_init`; `none` if it does not return `LFS_OK`. -/
def hashTableInit (initCapacity : ℤ) (loadFactor : ℚ) : Option HashTable :=
  if initCapacity < 0 ∨ loadFactor < 0 then none
  else
    let targetCapacity :=
      if initCapacity = 0 then 2 ^ 4 else if 2 ^ 30 < initCapacity then 2 ^ 30 else initCapacity
    let loadFactor := if 1 / 10 ≤ loadFactor ∧ loadFactor ≤ 1 then loadFactor else 3 / 4
    let capacity := roundCapacity targetCapacity 31 1
    (allocHashTableBuckets capacity).map fun table =>
      { table := table
        heap := fun _ => none
        nodes := 0
        itemCount := 0
        capacity := capacity
        loadFactor := loadFactor
        threshold := ⌊capacity * loadFactor⌋ }

/-- The inner loop of `_hash_table_resize`, which moves the nodes of a bucket. -/
def rehashChain : ℕ → Option ℕ → HashTable → Option HashTable
  | _, none, t => some t
  | 0, some _, _ => none
  | n + 1, some a, t =>
    match t.heap a with
    | none => none
    | some phd =>
      (t.addNode (indexFor (hashFunc phd.key) t.capacity) a).bind (rehashChain n phd.next)

/-- `_hash_table_resize`.  The table stays as it is if the new capacity is not an `int`: the size of the
array is then huge, and `malloc` fails.  The outer loop goes over `capacity` slots. -/
def hashTableResize (newCapacity : ℕ) (t : HashTable) : Option HashTable :=
  if 2 ^ 31 ≤ newCapacity then some t
  else if t.table.length ≠ t.capacity then none
  else
    (t.table.foldlM (fun t' head => rehashChain hashFunc t.nodes head t')
      { t with table := List.replicate newCapacity none, capacity := newCapacity, itemCount := 0 }).map
      fun t' => { t' with threshold := ⌊t'.capacity * t'.loadFactor⌋ }

/-! ### The operations -/

/-- The beginning of `hash_table_put`. -/
def resizeIfFull (t : HashTable) : Option HashTable :=
  if t.threshold ≤ t.itemCount then t.hashTableResize hashFunc (2 * t.capacity) else some t

/-- `hash_table_delete`, and the same steps in `_bucket_add_entry`: the node of the key is searched for
and deleted.  The result tells whether there was one. -/
def hashTableDelete (key : List Byte) (t : HashTable) : Option (Bool × HashTable) :=
  (t.search hashFunc key).bind fun (phdPre, phdBucket) =>
    match phdBucket with
    | none => some (false, t)
    | some a => (t.deleteNode (t.bucketOf hashFunc key) phdPre a).map fun t => (true, t)

/-- `hash_table_put` up to the point where the new node is allocated. -/
def beforeMalloc (key : List Byte) (t : HashTable) : Option HashTable :=
  (t.resizeIfFull hashFunc).bind fun t => (t.hashTableDelete hashFunc key).map Prod.snd

/-- A new node is allocated at the address `a`, and filled. -/
def newNode (a : ℕ) (key value : List Byte) (t : HashTable) : HashTable :=
  { t with heap := Function.update t.heap a (some ⟨key, value, none⟩), nodes := t.nodes + 1 }

/-- `hash_table_put` with `_bucket_add_entry`, where `malloc` returns `a` for the new node. -/
def hashTablePut (key value : List Byte) (a : ℕ) (t : HashTable) : Option HashTable :=
  (t.beforeMalloc hashFunc key).bind fun t =>
    (t.newNode a key value).addNode (t.bucketOf hashFunc key) a

def hashTableGet (key : List Byte) (t : HashTable) : Option (Option HashData) :=
  (t.search hashFunc key).bind fun (_, phdBucket) =>
    match phdBucket with
    | none => some none
    | some a => (t.heap a).map some

def hashTableCount (t : HashTable) : ℤ := t.itemCount

end HashTable

end Lfs.Common
