/-
The records of a binlog (`ds_binlog.c`, `lfs_define.h`).

A record is one line, `sequence|op|file id`, and the file id is
`group/volume/Bxx/map name`, where `Bxx` carries the index of the mount that the file is
stored on.  `binlogRecordParse` is `__binlog_record_parse` on such a line.
-/
import Lfs.Base.CString

namespace Lfs.Binlog

open Lfs.Lib List

def binlogRecordSize : ℕ := 256

def binlogRecordColumn : ℕ := 3

def lfsFileNameSize : ℕ := 128

def lfsFileBlockMapNameSize : ℕ := 256

/-- `mounts.blocks[i]->mount_path` for the `mount_count` mounts. -/
abbrev Mounts := List (List Byte)

/-- `binlog_record`; `f_id_length` is the length of `fId`. -/
structure BinlogRecord where
  opType : Byte
  fMapName : List Byte
  fBlockMapName : List Byte
  fId : List Byte
  sequence : ℤ
  mntBlockIndex : ℤ
deriving DecidableEq

/-- The ways in which `__binlog_record_parse` does not end in `B_FILE_OK`. -/
inductive ParseError where
  /-- `return B_FILE_ERROR`. -/
  | fileError
  /-- The `return LFS_ERROR` inside `LFS_SPLIT_BLOCK_INDEX_BY_FILE_ID`. -/
  | lfsError
  /-- An access out of `mounts.blocks` or past the end of `f_block_map_name`. -/
  | undefined
deriving DecidableEq

/-- `LFS_SPLIT_BLOCK_INDEX_BY_FILE_ID`: the strings `pblock_index` and
`fid_map_name_buff`, or `none` where the macro returns. -/
def splitBlockIndexByFileId (fileId : List Byte) : Option (List Byte × List Byte) := do
  let (_, vmn) ← cut fileIdSeperator (snprintfStr lfsFileIdSize fileId)
  let (_, mn) ← cut fileIdSeperator (snprintfStr lfsFileNameSize vmn)
  let (block, mapName) ← cut fileIdSeperator (snprintfStr lfsFileNameSize mn)
  -- `pblock_index = fid_mn_buff + 1` steps over the separator when the part is empty
  some (if block = [] then mapName else block.drop 1, mapName)

/-- `__binlog_record_parse` on the buffer `record`. -/
def binlogRecordParse (mounts : Mounts) (record : List Byte) : Except ParseError BinlogRecord :=
  match splitStr batDataSeperator binlogRecordColumn (cstr record) with
  | [sequence, op, idCol] =>
    -- the length of an empty column is `-1`, which is over the bound as an unsigned value
    if idCol.length = 0 ∨ lfsFileIdSize - 1 < idCol.length - 1 then .error .fileError
    else
      let fId := idCol.take (idCol.length - 1)
      match splitBlockIndexByFileId fId with
      | none => .error .lfsError
      | some (pblockIndex, mapName) =>
        let i := atoi pblockIndex
        match (if 0 ≤ i then mounts[i.toNat]? else none) with
        | none => .error .undefined
        | some mountPath =>
          let blockMapName := mountPath ++ fileIdSeperator :: mapName
          if lfsFileBlockMapNameSize ≤ blockMapName.length then .error .undefined
          else .ok
            { opType := op.headD 0
              fMapName := mapName
              fBlockMapName := blockMapName
              fId := fId
              sequence := atol sequence
              mntBlockIndex := i }
  | _ => .error .fileError

/-- A line of a binlog that is a well-formed record: a newline at the end and nowhere
else, no NUL, shorter than `BINLOG_RECORD_SIZE`, and accepted by the parser. -/
structure RecordLine (mounts : Mounts) where
  text : List Byte
  isLine : IsLine newline text
  noNul : (0 : Byte) ∉ text
  length_lt : text.length < binlogRecordSize
  record : BinlogRecord
  parse_eq : binlogRecordParse mounts text = .ok record

/-- The line as it is passed to `binlog_write`. -/
def RecordLine.cstring {mounts : Mounts} (l : RecordLine mounts) : CString := ⟨l.text, l.noNul⟩

/-- The record of the line `text`, if it is one. -/
def recordOf (mounts : Mounts) (text : List Byte) : Option BinlogRecord :=
  (binlogRecordParse mounts text).toOption

@[simp] lemma RecordLine.recordOf_text {mounts : Mounts} (l : RecordLine mounts) :
    recordOf mounts l.text = some l.record := by
  simp [recordOf, l.parse_eq, Except.toOption]

def textOf {mounts : Mounts} (ls : List (RecordLine mounts)) : List Byte :=
  (ls.map RecordLine.text).flatten

section

variable {mounts : Mounts} {ls ls' : List (RecordLine mounts)} {l : RecordLine mounts}

@[simp] lemma textOf_nil : textOf ([] : List (RecordLine mounts)) = [] := rfl

@[simp] lemma textOf_cons : textOf (l :: ls) = l.text ++ textOf ls := rfl

@[simp] lemma textOf_append : textOf (ls ++ ls') = textOf ls ++ textOf ls' := by
  simp [textOf]

@[simp] lemma textOf_eq_nil : textOf ls = [] ↔ ls = [] := by
  cases ls with
  | nil => simp
  | cons l ls => simp [l.isLine.ne_nil]

lemma isLine_of_mem_map : ∀ t ∈ ls.map RecordLine.text, IsLine newline t := by
  intro t ht
  obtain ⟨l, -, rfl⟩ := List.mem_map.1 ht
  exact l.isLine

lemma linesOf_textOf : linesOf newline (textOf ls) = ls.map RecordLine.text :=
  linesOf_flatten isLine_of_mem_map

lemma filterMap_recordOf_textOf :
    (linesOf newline (textOf ls)).filterMap (recordOf mounts) = ls.map RecordLine.record := by
  rw [linesOf_textOf, filterMap_map]
  simp

lemma filterMap_recordOf_textOf_append {t : List Byte} (ht : newline ∉ t) :
    (linesOf newline (textOf ls ++ t)).filterMap (recordOf mounts) = ls.map RecordLine.record := by
  rw [textOf, linesOf_flatten_append isLine_of_mem_map, linesOf_of_not_mem ht, append_nil,
    filterMap_map]
  simp

lemma length_lt_of_newline_not_mem {d t u : List Byte} (ht : t.length < binlogRecordSize)
    (hd : textOf ls ++ t = d ++ u) (h : newline ∉ d) : d.length < binlogRecordSize := by
  cases ls with
  | nil =>
    have hlen := congrArg List.length hd
    simp only [textOf_nil, nil_append, length_append] at hlen
    omega
  | cons l ls =>
    refine Nat.lt_trans (Nat.lt_of_not_le fun hle => ?_) l.length_lt
    -- otherwise the piece would contain the whole first record
    have htext : l.text <+: d ++ u := ⟨textOf ls ++ t, by rw [← hd, textOf_cons, append_assoc]⟩
    have hpre : l.text <+: d := prefix_of_prefix_length_le htext (prefix_append d u) hle
    exact h (hpre.subset l.isLine.mem)

/-- A part at the front of a text made of records: some of the records and an unfinished
line. -/
lemma exists_records_of_append {d u : List Byte} (hd : textOf ls = d ++ u) :
    ∃ ls₁ ls₂ t, ls = ls₁ ++ ls₂ ∧ d = textOf ls₁ ++ t ∧ newline ∉ t ∧
      t.length < binlogRecordSize := by
  induction ls generalizing d with
  | nil =>
    obtain ⟨rfl, -⟩ := append_eq_nil_iff.1 hd.symm
    exact ⟨[], [], [], rfl, rfl, by simp, by decide⟩
  | cons l ls ih =>
    rw [textOf_cons] at hd
    rcases append_eq_append_iff.1 hd with ⟨d', rfl, hls⟩ | ⟨r, hl, hu⟩
    · -- the part goes beyond the first record
      obtain ⟨ls₁, ls₂, t, rfl, rfl, ht, htlen⟩ := ih hls
      exact ⟨l :: ls₁, ls₂, t, rfl, by simp, ht, htlen⟩
    · by_cases hr : r = []
      · subst hr
        refine ⟨[l], ls, [], rfl, by simpa using hl.symm, by simp, by decide⟩
      · -- the part ends before the newline of the first record
        obtain ⟨a, ha, hla⟩ := l.isLine
        refine ⟨[], l :: ls, d, rfl, rfl, fun hmem => ha ?_, ?_⟩
        · have hlen : d.length ≤ a.length := by
            have h₁ := congrArg List.length (hl.symm.trans hla)
            have h₂ := length_pos_iff.2 hr
            simp only [length_append, length_singleton] at h₁
            omega
          have hd : d <+: l.text := ⟨r, hl.symm⟩
          have ha : a <+: l.text := ⟨[newline], hla.symm⟩
          exact (prefix_of_prefix_length_le hd ha hlen).subset hmem
        · have h₁ := congrArg List.length hl
          have h₂ := l.length_lt
          simp only [length_append] at h₁
          omega

lemma eq_nil_of_newline_not_mem (h : newline ∉ textOf ls) : ls = [] :=
  map_eq_nil_iff.1 (lines_eq_nil isLine_of_mem_map h)

end

/-! ### Some records -/

/-- The line `1|C|g/v/B0/a` on a server with the one mount `/m`. -/
def lineA : RecordLine [[47, 109]] where
  text := [49, 124, 67, 124, 103, 47, 118, 47, 66, 48, 47, 97, 10]
  isLine := ⟨[49, 124, 67, 124, 103, 47, 118, 47, 66, 48, 47, 97], by decide, rfl⟩
  noNul := by decide
  length_lt := by decide
  record := ⟨67, [97], [47, 109, 47, 97], [103, 47, 118, 47, 66, 48, 47, 97], 1, 0⟩
  parse_eq := by rfl

/-- The line `2|C|g/v/B0/b` on the same server. -/
def lineB : RecordLine [[47, 109]] where
  text := [50, 124, 67, 124, 103, 47, 118, 47, 66, 48, 47, 98, 10]
  isLine := ⟨[50, 124, 67, 124, 103, 47, 118, 47, 66, 48, 47, 98], by decide, rfl⟩
  noNul := by decide
  length_lt := by decide
  record := ⟨67, [98], [47, 109, 47, 98], [103, 47, 118, 47, 66, 48, 47, 98], 2, 0⟩
  parse_eq := by rfl

/-- The line `1|C|g/v/B0/c`, of the same second as the first one. -/
def lineC : RecordLine [[47, 109]] where
  text := [49, 124, 67, 124, 103, 47, 118, 47, 66, 48, 47, 99, 10]
  isLine := ⟨[49, 124, 67, 124, 103, 47, 118, 47, 66, 48, 47, 99], by decide, rfl⟩
  noNul := by decide
  length_lt := by decide
  record := ⟨67, [99], [47, 109, 47, 99], [103, 47, 118, 47, 66, 48, 47, 99], 1, 0⟩
  parse_eq := by rfl

end Lfs.Binlog
