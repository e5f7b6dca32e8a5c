/-
The state file of the mounts, `block_snapshot.bat`.

The file has one line for each mount, in the order of the mounts, and the lines are given to the mounts
of the configuration in that order when the server is started.  The loop that reads them goes on as long
as there are lines.
-/
import Lfs.Base.Text
import Lfs.Block.Mounts

namespace Lfs.Block

open Lfs.Lib List

/-! ### A line is read as it was written -/

namespace BlockSt

variable {b o : BlockSt} {bs os : List BlockSt}

lemma mem_columns {a : List Byte} (ha : a ∈ b.columns) : ∃ n : Int32, a = decimalInt n.toInt := by
  obtain ⟨n, -, rfl⟩ := mem_map.1 ha
  exact ⟨n, rfl⟩

lemma notMem_intercalate_columns {c : Byte} (hsep : c ≠ batDataSeperator) (hsign : c ≠ 45)
    (hdigit : isDigit c = false) : c ∉ intercalate [batDataSeperator] b.columns := by
  intro hmem
  rcases mem_intercalate hmem with heq | ⟨a, ha, hca⟩
  · exact hsep heq
  · obtain ⟨n, rfl⟩ := mem_columns ha
    rcases mem_decimalInt hca with heq | hdigit'
    · exact hsign heq
    · rw [hdigit] at hdigit'
      exact Bool.false_ne_true hdigit'

lemma isLine_line (b : BlockSt) : IsLine newline b.line :=
  ⟨_, notMem_intercalate_columns (by decide) (by decide) (by decide), rfl⟩

lemma cstr_line (b : BlockSt) : cstr b.line = b.line := by
  refine cstr_of_notMem ?_
  rw [line, mem_append, mem_singleton]
  rintro (hmem | heq)
  · exact notMem_intercalate_columns (by decide) (by decide) (by decide) hmem
  · exact absurd heq (by decide)

lemma length_column_le (n : Int32) : (decimalInt n.toInt).length ≤ 11 :=
  length_decimalInt_le (by decide) (lt_of_lt_of_le (by decide) n.le_toInt)
    (n.toInt_lt.trans (by decide))

lemma length_line_lt (b : BlockSt) : b.line.length < 256 := by
  have hle := length_intercalate_le batDataSeperator b.columns
  have h0 := length_column_le b.prePathMap
  have h1 := length_column_le b.sufPathMap
  have h2 := length_column_le b.currPathMapFileCount
  have h3 := length_column_le b.totalSizeMb
  have h4 := length_column_le b.freeSizeMb
  simp only [columns, map_cons, map_nil, sum_cons, sum_nil] at hle
  rw [line, length_append, length_singleton, columns]
  simp only [map_cons, map_nil]
  omega

lemma splitStr_line (b : BlockSt) :
    splitStr batDataSeperator mountBlockStatBinlogDatafileds b.line =
      [decimalInt b.prePathMap.toInt, decimalInt b.sufPathMap.toInt,
        decimalInt b.currPathMapFileCount.toInt, decimalInt b.totalSizeMb.toInt,
        decimalInt b.freeSizeMb.toInt ++ [newline]] := by
  have hline : b.line = intercalate [batDataSeperator]
      ([decimalInt b.prePathMap.toInt, decimalInt b.sufPathMap.toInt,
        decimalInt b.currPathMapFileCount.toInt, decimalInt b.totalSizeMb.toInt] ++
        [decimalInt b.freeSizeMb.toInt ++ [newline]]) := by
    simp [line, columns, intercalate_cons_cons]
  rw [hline]
  refine @splitStr_intercalate _ [_, _, _, _] _ fun a ha => ?_
  simp only [mem_cons, not_mem_nil, or_false] at ha
  rcases ha with rfl | rfl | rfl | rfl <;> exact separator_notMem_decimalInt _

end BlockSt

lemma fieldValue_decimalInt (n : Int32) : fieldValue (decimalInt n.toInt) = n := by
  have hread := atoi_decimalInt (t := []) n.le_toInt n.toInt_lt (by simp)
  rw [append_nil] at hread
  rw [fieldValue, trim_decimalInt, hread, Int32.ofInt_toInt]

lemma fieldValue_decimalInt_newline (n : Int32) :
    fieldValue (decimalInt n.toInt ++ [newline]) = n := by
  have htrim : trim (decimalInt n.toInt ++ [newline]) = decimalInt n.toInt :=
    trim_append_newline (fun b hb => isBlank_of_mem_decimalInt (mem_of_head? hb))
      fun b hb => isBlank_of_mem_decimalInt (mem_of_getLast? hb)
  have hvalue := fieldValue_decimalInt n
  rw [fieldValue, trim_decimalInt] at hvalue
  rw [fieldValue, htrim, hvalue]

/-! ### The loop over the lines -/

/-- The lines of the mounts `os` are given to the mounts `bs`. -/
def restoreAll : List BlockSt → List BlockSt → List BlockSt
  | o :: os, b :: bs => { o with mountPath := b.mountPath } :: restoreAll os bs
  | _, bs => bs

lemma infoLoop_line (o : BlockSt) (ls : List (List Byte)) (i : ℕ) (blocks : List BlockSt) :
    infoLoop (o.line :: ls) i blocks = if i < blocks.length then
        infoLoop ls (i + 1) (blocks.modify i fun b => { o with mountPath := b.mountPath })
      else none := by
  rw [infoLoop, o.cstr_line, if_neg o.isLine_line.ne_nil, o.splitStr_line]
  simp only [fieldValue_decimalInt, fieldValue_decimalInt_newline]

/-- **The loop.**  It leaves the mounts if there are more lines than mounts. -/
lemma infoLoop_lines (os done bs : List BlockSt) :
    infoLoop (os.map BlockSt.line) done.length (done ++ bs) =
      if os.length ≤ bs.length then some (done ++ restoreAll os bs) else none := by
  induction os generalizing done bs with
  | nil => simp [infoLoop, restoreAll]
  | cons o os ih =>
    rw [map_cons, infoLoop_line]
    cases bs with
    | nil => simp
    | cons b bs =>
      have hmodify : (done ++ b :: bs).modify done.length
          (fun b => { o with mountPath := b.mountPath }) =
          (done ++ [{ o with mountPath := b.mountPath }]) ++ bs := by
        rw [modify_eq_take_cons_drop (by simp)]
        simp
      have hlength : done.length + 1 = (done ++ [{ o with mountPath := b.mountPath }]).length := by
        simp
      rw [if_pos (by simp), hmodify, hlength, ih]
      simp [restoreAll]

lemma restoreAll_of_paths (os : List BlockSt) :
    restoreAll os (os.map fun o => ⟨o.mountPath, 0, 0, 0, 0, 0⟩) = os := by
  induction os with
  | nil => rfl
  | cons o os ih => rw [map_cons, restoreAll, ih]

namespace BlockMount

/-- The start of a server from a file that was written for the mounts of `old`. -/
lemma mountBlockMapInit_stat (old : BlockMount) (paths : List (List Byte))
    (stat : ℕ → Option Statvfs) :
    mountBlockMapInit paths (some old.mountBlockStatWrite) stat =
      if old.blocks.length ≤ paths.length then
        some (true, ⟨restoreAll old.blocks (paths.map fun path => ⟨path, 0, 0, 0, 0, 0⟩), 0, 0, false⟩)
      else none := by
  have hlines : fgetsLines 256 old.mountBlockStatWrite = old.blocks.map BlockSt.line := by
    refine fgetsLines_flatten fun l hl => ?_
    obtain ⟨b, -, rfl⟩ := mem_map.1 hl
    exact ⟨b.isLine_line, b.length_line_lt⟩
  have hloop := infoLoop_lines old.blocks [] (paths.map fun path => ⟨path, 0, 0, 0, 0, 0⟩)
  rw [nil_append, length_nil, nil_append, length_map] at hloop
  rw [mountBlockMapInit, mountBlockInfoInit, hlines, hloop]
  split_ifs <;> rfl

/-- **The state file.**  The server stays inside its mounts, and restores them if they are the same,
exactly if it has not fewer mounts than when the file was written. -/
theorem block_state_iff (old : BlockMount) (paths : List (List Byte)) (stat : ℕ → Option Statvfs) :
    (∃ m, mountBlockMapInit paths (some old.mountBlockStatWrite) stat = some (true, m) ∧
        (paths = old.blocks.map BlockSt.mountPath → m.blocks = old.blocks)) ↔
      old.blocks.length ≤ paths.length := by
  rw [mountBlockMapInit_stat]
  constructor
  · rintro ⟨m, hm, -⟩
    by_contra hle
    rw [if_neg hle] at hm
    exact absurd hm (by simp)
  · intro hle
    rw [if_pos hle]
    refine ⟨_, rfl, ?_⟩
    rintro rfl
    rw [List.map_map]
    exact restoreAll_of_paths old.blocks

def twoMounts : BlockMount :=
  ⟨[⟨[47, 109], 0, 1, 2, 5, 3⟩, ⟨[47, 110], 0, 0, 7, 5, 4⟩], 0, 0, false⟩

/-- Two mounts when the file was written, and one of them now. -/
theorem block_state_fewer_mounts :
    mountBlockMapInit [[47, 109]] (some twoMounts.mountBlockStatWrite) (fun _ => none) = none ∧
      ¬ ∃ m, mountBlockMapInit [[47, 109]] (some twoMounts.mountBlockStatWrite) (fun _ => none) =
          some (true, m) ∧
        ([[47, 109]] = twoMounts.blocks.map BlockSt.mountPath → m.blocks = twoMounts.blocks) := by
  have hnone : mountBlockMapInit [[47, 109]] (some twoMounts.mountBlockStatWrite) (fun _ => none) =
      none := by
    rw [mountBlockMapInit_stat]
    rfl
  refine ⟨hnone, ?_⟩
  rintro ⟨m, hm, -⟩
  rw [hnone] at hm
  exact absurd hm (by simp)

end BlockMount

end Lfs.Block
