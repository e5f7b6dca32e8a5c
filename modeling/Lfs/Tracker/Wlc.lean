/-
The skip list of the tracker (`ts_wlc.c`).

The blocks that have reported their load are kept in a skip list, ordered by `wlc`, the product of
connections and weight, and then by `block_id`.  `wlcsl_insert` looks for the place of a node with
`<` on the pair.  `wlcsl_find` and `wlcsl_delete` go over the nodes with the same `wlc` while the
`block_id` is another one, smaller or larger.

The memory of the nodes is one function for each field.  A node is its address, and the header the
position `none`.  A pointer to a block is its index in the list of blocks.
-/
import Lfs.Lib.SkipList
import Lfs.Tracker.Types

namespace Lfs.Tracker

open Lfs.Lib

def wlcSkiplistMaxLevel : ℕ := 16

/-- `wlc_skiplist`, with the memory of its nodes. -/
structure WlcSkiplist where
  /-- `x->level[i].forward`. -/
  forward : Option ℕ → ℕ → Option ℕ
  backward : ℕ → Option ℕ
  wlc : ℕ → ℤ
  dblk : ℕ → ℕ
  /-- The number of levels with which the node was allocated. -/
  height : ℕ → ℕ
  freed : ℕ → Bool
  /-- The addresses below this one have been allocated. -/
  allocated : ℕ
  tail : Option ℕ
  length : ℕ
  level : ℕ

structure WlcCtx where
  dblk : ℕ
  oldWlc : ℤ
  newWlc : ℤ
deriving DecidableEq

def wlcslCreate : WlcSkiplist where
  forward := fun _ _ => none
  backward := fun _ => none
  wlc := fun _ => 0
  dblk := fun _ => 0
  height := fun _ => 0
  freed := fun _ => false
  allocated := 0
  tail := none
  length := 0
  level := 1

/-- `wlcsl_random_level`, when `n` draws of `random` are small before one is not. -/
def wlcslRandomLevel (n : ℕ) : ℕ :=
  if n + 1 < wlcSkiplistMaxLevel then n + 1 else wlcSkiplistMaxLevel

namespace WlcSkiplist

/-- The nodes of the list, in the order of the lowest level. -/
def nodes (s : WlcSkiplist) : List ℕ := follow (fun x => s.forward x 0) s.allocated none

variable (blockId : ℕ → UInt32)

/-- The node `a` comes before a node with `wlc` for the block `dblk`. -/
def before (s : WlcSkiplist) (wlc : ℤ) (dblk a : ℕ) : Bool :=
  s.wlc a < wlc || (s.wlc a = wlc && blockId (s.dblk a) < blockId dblk)

/-- The search for `wlc` and the block `dblk` goes over the node `a`. -/
def passes (s : WlcSkiplist) (wlc : ℤ) (dblk a : ℕ) : Bool :=
  s.wlc a < wlc || (s.wlc a = wlc && blockId (s.dblk a) ≠ blockId dblk)

/-- `wlcsl_node_new`, with the address of the node. -/
def nodeNew (level : ℕ) (wlc : ℤ) (dblk : ℕ) (s : WlcSkiplist) : ℕ × WlcSkiplist :=
  (s.allocated,
    { s with
      wlc := Function.update s.wlc s.allocated wlc
      dblk := Function.update s.dblk s.allocated dblk
      height := Function.update s.height s.allocated level
      freed := Function.update s.freed s.allocated false
      allocated := s.allocated + 1 })

/-- The array `update` of `wlcsl_insert`. -/
def insertUpdate (wlc : ℤ) (dblk : ℕ) (s : WlcSkiplist) (i : ℕ) : Option ℕ :=
  if i < s.level then
    descend s.forward (s.before blockId wlc dblk) s.allocated s.level none i
  else none

/-- The end of `wlcsl_insert`: the pointer back to the node `x`. -/
def linkBack (x : ℕ) (s : WlcSkiplist) : WlcSkiplist :=
  match s.forward (some x) 0 with
  | some y => { s with backward := Function.update s.backward y (some x) }
  | none => { s with tail := some x }

/-- `wlcsl_insert`, with the level that `wlcsl_random_level` returns. -/
def wlcslInsert (level : ℕ) (wlc : ℤ) (dblk : ℕ) (s : WlcSkiplist) : WlcSkiplist :=
  let update := s.insertUpdate blockId wlc dblk
  let (x, s) := s.nodeNew level wlc dblk
  linkBack x
    { s with
      level := max s.level level
      forward := linkLevels x update s.forward level
      backward := Function.update s.backward x (update 0)
      length := s.length + 1 }

/-- The loop at the end of `wlcsl_node_delete` that lowers `level`. -/
def lowerLevel (forward : Option ℕ → ℕ → Option ℕ) : ℕ → ℕ
  | 0 => 0
  | 1 => 1
  | i + 2 => if forward none (i + 1) = none then lowerLevel forward (i + 1) else i + 2

def wlcslNodeDelete (x : ℕ) (update : ℕ → Option ℕ) (s : WlcSkiplist) : WlcSkiplist :=
  let s := { s with forward := unlinkLevels x update s.forward s.level }
  let s :=
    match s.forward (some x) 0 with
    | some y => { s with backward := Function.update s.backward y (s.backward x) }
    | none => { s with tail := s.backward x }
  { s with level := lowerLevel s.forward s.level, length := s.length - 1 }

/-- The position `update[i]` at which the search of `wlcsl_delete` and `wlcsl_find` leaves the
level `i`. -/
def search (wlc : ℤ) (dblk : ℕ) (s : WlcSkiplist) (i : ℕ) : Option ℕ :=
  descend s.forward (s.passes blockId wlc dblk) s.allocated s.level none i

def wlcslFind (wlc : ℤ) (dblk : ℕ) (s : WlcSkiplist) : Option ℕ :=
  match s.forward (s.search blockId wlc dblk 0) 0 with
  | none => none
  | some x => if s.wlc x = wlc ∧ blockId (s.dblk x) = blockId dblk then some x else none

/-- `wlcsl_delete` with `node == NULL`, and whether it returns 1. -/
def wlcslDelete (wlc : ℤ) (dblk : ℕ) (s : WlcSkiplist) : Bool × WlcSkiplist :=
  match s.forward (s.search blockId wlc dblk 0) 0 with
  | none => (false, s)
  | some x =>
    if s.wlc x = wlc ∧ blockId (s.dblk x) = blockId dblk then
      let s := s.wlcslNodeDelete x (s.search blockId wlc dblk)
      (true, { s with freed := Function.update s.freed x true })
    else (false, s)

def clusterWlcBlockAdd (level : ℕ) (wctx : WlcCtx) (s : WlcSkiplist) : WlcSkiplist :=
  if wctx.oldWlc = wctx.newWlc then s
  else
    let s :=
      match s.wlcslFind blockId wctx.oldWlc wctx.dblk with
      | some node => (s.wlcslDelete blockId (s.wlc node) (s.dblk node)).2
      | none => s
    s.wlcslInsert blockId level wctx.newWlc wctx.dblk

/-- The result of `cluster_wlc_write_block_get`: the blocks that it has set `off_line`, and the
block that it returns. -/
structure WriteBlock where
  wlcsl : WlcSkiplist
  offLine : List ℕ
  dblk : Option ℕ

/-- The loop of `cluster_wlc_write_block_get` at the node `x`; `none` stands for a pointer that is
read from a node that has been freed. -/
def writeBlockLoop (expired : ℕ → Bool) : ℕ → Option ℕ → List ℕ → WlcSkiplist → Option WriteBlock
  | 0, _, _, _ => none
  | n + 1, x, offLine, s =>
    if x.any s.freed then none
    else
      match s.forward x 0 with
      | none => some ⟨s, offLine, none⟩
      | some y =>
        if expired (s.dblk y) then
          writeBlockLoop expired n (some y) (offLine ++ [s.dblk y])
            (s.wlcslDelete blockId (s.wlc y) (s.dblk y)).2
        else some ⟨s, offLine, some (s.dblk y)⟩

/-- `cluster_wlc_write_block_get`; `expired` are the blocks whose last heartbeat is more than
`heart_beat_interval` ago. -/
def clusterWlcWriteBlockGet (expired : ℕ → Bool) (s : WlcSkiplist) : Option WriteBlock :=
  s.writeBlockLoop blockId expired (s.allocated + 1) none []

end WlcSkiplist

end Lfs.Tracker
