/-
The mounts of a dataserver (`ds_block.c`).

Each mount has `block_sub_count` times `block_sub_count` directories, which are filled one after the
other: `__block_map_path_polling` gives an upload the directory that is being filled, and goes on to the
next one after `block_max_file_count` files.  The state of the mounts is written to
`block_snapshot.bat` and loaded from there when the server is started; without such a file the sizes
come from `statvfs`.

The values are C `int`s and are kept as `Int32`, whose operations wrap.  A result `none` stands for an
access to `mounts.blocks` behind its end.
-/
import Lfs.Base.CString

namespace Lfs.Block

/-- `struct block_st`. -/
structure BlockSt where
  mountPath : List Byte
  prePathMap : Int32
  sufPathMap : Int32
  currPathMapFileCount : Int32
  totalSizeMb : Int32
  freeSizeMb : Int32
deriving DecidableEq

/-- `block_mount`, with the flag `is_statistics`.  The field `mount_count` is the number of
blocks. -/
structure BlockMount where
  blocks : List BlockSt
  blockTotalSizeMb : Int32
  blockFreeSizeMb : Int32
  isStatistics : Bool
deriving DecidableEq

/-- The items of the configuration that are used here. -/
structure ConfItems where
  blockSubCount : Int32
  blockMaxFileCount : Int32
deriving DecidableEq

/-- The fields of `struct statvfs` that are used. -/
structure Statvfs where
  fBlocks : UInt64
  fBavail : UInt64
  fFrsize : UInt64
deriving DecidableEq

/-- A number of blocks of the file system in megabytes, as it is assigned to an `int`. -/
def Statvfs.sizeMb (sbuff : Statvfs) (blocks : UInt64) : Int32 :=
  (blocks * sbuff.fFrsize / (1024 * 1024)).toUInt32.toInt32

/-! ### Choosing a mount and a directory -/

/-- `__conn_mount_polling`, and `f_mnt_block_index` afterwards.  `check i` says whether
`__block_reserve_check` returns 0 for the mount `i`.  The loop variable is judged after the loop: it
is the mount at which the loop was left, or the number of mounts. -/
def connMountPolling (check : ℕ → Bool) (mountCount sfd : ℕ) (fMntBlockIndex : ℤ) : Bool × ℤ :=
  let mntIndex := sfd % mountCount
  if check mntIndex then (true, mntIndex)
  else
    match (List.range mountCount).find? fun i => decide (i ≠ mntIndex) && check i with
    | some i => (decide (i ≠ mountCount - 1), i)
    | none => (decide (mountCount ≠ mountCount - 1), fMntBlockIndex)

namespace BlockSt

/-- The section of `__block_map_path_polling` under the lock, on the mount of the file.  The count was
read before the lock was taken. -/
def lockedSection (conf : ConfItems) (currFileCount : Int32) (b : BlockSt) : BlockSt :=
  if conf.blockMaxFileCount ≤ currFileCount then
    if conf.blockSubCount ≤ b.sufPathMap + 1 then
      { b with
        currPathMapFileCount := 0
        prePathMap := if conf.blockSubCount ≤ b.prePathMap + 1 then 0 else b.prePathMap + 1
        sufPathMap := 0 }
    else { b with currPathMapFileCount := 0, sufPathMap := b.sufPathMap + 1 }
  else { b with currPathMapFileCount := currFileCount }

/-- `f_mp_pre` and `f_mp_suf`, which are read when the lock has been given back. -/
def directory (b : BlockSt) : Int32 × Int32 := (b.prePathMap, b.sufPathMap)

/-- `__block_map_path_polling` with no other thread in between: the mount afterwards. -/
def blockMapPathPolling (conf : ConfItems) (b : BlockSt) : BlockSt :=
  b.lockedSection conf (b.currPathMapFileCount + 1)

/-! ### The sizes of the mounts -/

/-- The sizes that `statvfs` has returned. -/
def setSizes (sbuff : Statvfs) (b : BlockSt) : BlockSt :=
  { b with
    totalSizeMb := sbuff.sizeMb sbuff.fBlocks
    freeSizeMb := sbuff.sizeMb sbuff.fBavail }

end BlockSt

namespace BlockMount

/-- `__block_statvfs_cal`, and whether it returns `LFS_OK`. -/
def blockStatvfsCal (stat : Option Statvfs) (mntIndex : ℕ) (m : BlockMount) : Bool × BlockMount :=
  match stat with
  | none => (false, m)
  | some sbuff => (true, { m with blocks := m.blocks.modify mntIndex (.setSizes sbuff) })

/-- `block_vfs_statistics`.  The totals of the last call are not set back to zero. -/
def blockVfsStatistics (m : BlockMount) : BlockMount :=
  if m.isStatistics then m
  else
    m.blocks.foldl (fun m b =>
      { m with
        blockTotalSizeMb := m.blockTotalSizeMb + b.totalSizeMb
        blockFreeSizeMb := m.blockFreeSizeMb + b.freeSizeMb }) m

/-- A round of the loop of `__mount_block_statvfs`, with the result of `statvfs` for the mount.  The
loop is left when `statvfs` fails. -/
def mountBlockStatvfsRound (r : Bool × BlockMount) (b : BlockSt) (stat : Option Statvfs) :
    Bool × BlockMount :=
  let (ok, m) := r
  let b₀ := { b with prePathMap := 0, sufPathMap := 0, currPathMapFileCount := 0 }
  match ok, stat with
  | false, _ => (false, { m with blocks := m.blocks ++ [b] })
  | true, none => (false, { m with blocks := m.blocks ++ [b₀] })
  | true, some sbuff =>
    (true, { m with
      blocks := m.blocks ++ [b₀.setSizes sbuff]
      blockTotalSizeMb := m.blockTotalSizeMb + (b₀.setSizes sbuff).totalSizeMb
      blockFreeSizeMb := m.blockFreeSizeMb + (b₀.setSizes sbuff).freeSizeMb })

/-- `__mount_block_statvfs`, and whether it returns `LFS_OK`; `stat i` is the result for the mount
`i`. -/
def mountBlockStatvfs (stat : ℕ → Option Statvfs) (m : BlockMount) : Bool × BlockMount :=
  m.blocks.zipIdx.foldl (fun r b => mountBlockStatvfsRound r b.1 (stat b.2))
    (true, { m with blocks := [] })

end BlockMount

/-! ### The state file -/

def mountBlockStatBinlogDatafileds : ℕ := 5

namespace BlockSt

def columns (b : BlockSt) : List (List Byte) :=
  [b.prePathMap, b.sufPathMap, b.currPathMapFileCount, b.totalSizeMb, b.freeSizeMb].map
    fun n => decimalInt n.toInt

/-- The line that `sprintf` makes for a mount. -/
def line (b : BlockSt) : List Byte :=
  List.intercalate [batDataSeperator] b.columns ++ [newline]

end BlockSt

/-- `atoi(trim(field))`. -/
def fieldValue (field : List Byte) : Int32 := Int32.ofInt (atoi (trim field))

/-- `__mount_block_stat_write`, where every call succeeds: the file afterwards. -/
def BlockMount.mountBlockStatWrite (m : BlockMount) : List Byte :=
  (m.blocks.map BlockSt.line).flatten

/-- The loop of `__mount_block_info_init` over the results of `fgets`, from the mount `i` on.  It is
left at a line with the wrong number of columns. -/
def infoLoop : List (List Byte) → ℕ → List BlockSt → Option (List BlockSt)
  | [], _, blocks => some blocks
  | sline :: ls, i, blocks =>
    if cstr sline = [] then infoLoop ls i blocks
    else
      match splitStr batDataSeperator mountBlockStatBinlogDatafileds (cstr sline) with
      | [f0, f1, f2, f3, f4] =>
        if i < blocks.length then
          infoLoop ls (i + 1) (blocks.modify i fun b =>
            { b with
              prePathMap := fieldValue f0
              sufPathMap := fieldValue f1
              currPathMapFileCount := fieldValue f2
              totalSizeMb := fieldValue f3
              freeSizeMb := fieldValue f4 })
        else none
      | _ => some blocks

namespace BlockMount

/-- `__mount_block_info_init`, and whether it returns `LFS_OK`; `file` is `block_snapshot.bat` if there
is one. -/
def mountBlockInfoInit (file : Option (List Byte)) (stat : ℕ → Option Statvfs) (m : BlockMount) :
    Option (Bool × BlockMount) :=
  match file with
  | none => some (m.mountBlockStatvfs stat)
  | some text =>
    (infoLoop (fgetsLines 256 text) 0 m.blocks).map fun blocks => (true, { m with blocks := blocks })

/-- `mount_block_map_init` for the mounts of the configuration, whose directories are there. -/
def mountBlockMapInit (paths : List (List Byte)) (file : Option (List Byte))
    (stat : ℕ → Option Statvfs) : Option (Bool × BlockMount) :=
  mountBlockInfoInit file stat
    { blocks := paths.map fun path => ⟨path, 0, 0, 0, 0, 0⟩
      blockTotalSizeMb := 0
      blockFreeSizeMb := 0
      isStatistics := false }

end BlockMount

end Lfs.Block
