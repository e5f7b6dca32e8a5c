/-
Where the reader for an asynchronous copy starts (`asyncctx_init` in `ds_binlog.c`).

Without a mark file the start is found by `__binlog_sync_offset_locate`, which reads the
last binlog file line by line and steps over the records whose sequence is at most the one
that the peer has reported.  On a file made of records the result is the length of these
records.

The files before the last one are not looked at.  So the peer misses the records of these files
that it has not got yet.
-/
import Lfs.Base.Text
import Lfs.Binlog.Reader
import Mathlib.Data.List.TakeWhile

namespace Lfs.Binlog

open Lfs.Lib List

/-- The loop of `__binlog_sync_offset_locate` over the lines that `fgets` returns, with the
offset so far; `none` for the `goto err`. -/
def offsetLocate (lastSyncSequence : ℤ) : List (List Byte) → ℕ → Option ℕ
  | [], offset => some offset
  | sline :: lines, offset =>
    if cstr sline = [] then offsetLocate lastSyncSequence lines offset
    else match splitStr batDataSeperator binlogRecordColumn (cstr sline) with
      | [sequence, _, _] =>
        if atol sequence ≤ lastSyncSequence then
          offsetLocate lastSyncSequence lines (offset + (cstr sline).length)
        else some offset
      | _ => none

namespace SyncCtx

/-- `__binlog_sync_offset_locate` on the file `b_index`. -/
def binlogSyncOffsetLocate (lastSyncSequence : ℤ) (c : BinlogCtx) (s : SyncCtx) : SyncCtx :=
  match offsetLocate lastSyncSequence (fgetsLines binlogRecordSize (c.files s.bIndex)) 0 with
  | some offset => { s with bOffset := offset }
  | none => s

end SyncCtx

/-- `asyncctx_init` with this mark file, where the files can be opened and written. -/
def asyncctxInit (lastSyncSequence : ℤ) (c : BinlogCtx) (markFile : Option (List Byte)) : SyncCtx :=
  let s := zeroSyncCtx markFile
  if markFile.isSome then s.markFileBatdataLoad.openSettingBinlog
  else
    let s := { s with bIndex := c.currBinlogFileIndex }.binlogSyncOffsetLocate lastSyncSequence c
    (s.syncMarkFileBatdataWrite (readSizes (fun _ => 0) 0)).2.openSettingBinlog

section

variable {mounts : Mounts} {ls : List (RecordLine mounts)} {c : BinlogCtx} {sequence : ℤ}

lemma fgetsLines_textOf (ls : List (RecordLine mounts)) :
    fgetsLines binlogRecordSize (textOf ls) = ls.map RecordLine.text := by
  refine fgetsLines_flatten fun t ht => ?_
  obtain ⟨l, -, rfl⟩ := List.mem_map.1 ht
  exact ⟨l.isLine, l.length_lt⟩

lemma RecordLine.cstr_text (l : RecordLine mounts) : cstr l.text = l.text :=
  cstr_of_notMem l.noNul

lemma RecordLine.splitStr_text (l : RecordLine mounts) :
    ∃ sequence op idCol, splitStr batDataSeperator binlogRecordColumn l.text = [sequence, op, idCol] ∧
      l.record.sequence = atol sequence := by
  have hparse := l.parse_eq
  unfold binlogRecordParse at hparse
  rw [l.cstr_text] at hparse
  split at hparse
  · refine ⟨_, _, _, ‹_›, ?_⟩
    dsimp only at hparse
    split_ifs at hparse
    all_goals
      split at hparse
      · cases hparse
      · split at hparse
        · cases hparse
        · split_ifs at hparse
          all_goals first | cases hparse | rw [← Except.ok.inj hparse]
  · cases hparse

lemma offsetLocate_map_text (ls : List (RecordLine mounts)) (offset : ℕ) :
    offsetLocate sequence (ls.map RecordLine.text) offset = some (offset +
      (textOf (ls.takeWhile fun l => l.record.sequence ≤ sequence)).length) := by
  induction ls generalizing offset with
  | nil => rfl
  | cons l ls ih =>
    obtain ⟨seqCol, op, idCol, hsplit, hseq⟩ := l.splitStr_text
    rw [map_cons, offsetLocate, l.cstr_text, if_neg l.isLine.ne_nil, hsplit]
    dsimp only
    rw [← hseq, takeWhile_cons]
    by_cases hle : l.record.sequence ≤ sequence
    · rw [if_pos hle, ih, if_pos (by simpa using hle), textOf_cons, length_append, add_assoc]
    · rw [if_neg hle, if_neg (by simpa using hle)]
      rfl

lemma SyncCtx.binlogSyncOffsetLocate_eq {s : SyncCtx} (hfile : c.files s.bIndex = textOf ls) :
    s.binlogSyncOffsetLocate sequence c = { s with
      bOffset := (textOf (ls.takeWhile fun l => l.record.sequence ≤ sequence)).length } := by
  rw [binlogSyncOffsetLocate, hfile, fgetsLines_textOf, offsetLocate_map_text, zero_add]

lemma asyncctxInit_bOffset (hfile : c.files c.currBinlogFileIndex = textOf ls) :
    (asyncctxInit sequence c none).bOffset =
      (textOf (ls.takeWhile fun l => l.record.sequence ≤ sequence)).length := by
  have hlocate := @SyncCtx.binlogSyncOffsetLocate_eq _ _ _ sequence
    { zeroSyncCtx none with bIndex := c.currBinlogFileIndex } hfile
  simp [asyncctxInit, hlocate, SyncCtx.openSettingBinlog, SyncCtx.syncMarkFileBatdataWrite,
    readSizes]

/-- No record that begins before the position of the reader has a larger sequence. -/
def NothingSkipped (fls : ℕ → List (RecordLine mounts)) (sequence : ℤ) (s : SyncCtx) : Prop :=
  (∀ i < s.bIndex, ∀ l ∈ fls i, l.record.sequence ≤ sequence) ∧
    ∀ ls₁ l ls₂, fls s.bIndex = ls₁ ++ l :: ls₂ → (textOf ls₁).length < s.bOffset →
      l.record.sequence ≤ sequence

lemma asyncctxInit_bIndex : (asyncctxInit sequence c none).bIndex = c.currBinlogFileIndex := by
  unfold asyncctxInit SyncCtx.binlogSyncOffsetLocate
  simp only [Option.isSome_none, Bool.false_eq_true, if_false]
  split <;> rfl

lemma sequence_le_of_length_lt {ls₁ ls₂ : List (RecordLine mounts)} {l : RecordLine mounts}
    (hlt : (textOf ls₁).length <
      (textOf ((ls₁ ++ l :: ls₂).takeWhile fun l => l.record.sequence ≤ sequence)).length) :
    l.record.sequence ≤ sequence := by
  by_contra hnot
  -- the scan does not get past `l`
  have hsub : ((ls₁ ++ l :: ls₂).takeWhile fun l => l.record.sequence ≤ sequence).Sublist ls₁ := by
    rw [takeWhile_append]
    split_ifs
    · rw [takeWhile_cons_of_neg (by simpa using hnot), append_nil]
    · exact takeWhile_sublist _
  have hle := (hsub.map RecordLine.text).flatten.length_le
  exact absurd hlt (Nat.not_lt.2 hle)

/-- **The start of an asynchronous copy.**  Without a mark file, there is no record with a larger
sequence than the one given before the position at which the reader starts, exactly if there is none
in a file before the last one. -/
theorem async_start_iff (c : BinlogCtx) (fls : ℕ → List (RecordLine mounts))
    (hfiles : ∀ i ≤ c.currBinlogFileIndex, c.files i = textOf (fls i)) (sequence : ℤ) :
    NothingSkipped fls sequence (asyncctxInit sequence c none) ↔
      ∀ i < c.currBinlogFileIndex, ∀ l ∈ fls i, l.record.sequence ≤ sequence := by
  rw [NothingSkipped, asyncctxInit_bIndex, asyncctxInit_bOffset (hfiles _ le_rfl)]
  constructor
  · exact fun h => h.1
  · intro h
    refine ⟨h, fun ls₁ l ls₂ hsplit hlt => ?_⟩
    rw [hsplit] at hlt
    exact sequence_le_of_length_lt hlt

/-- A context with these files, the last of which is open. -/
def ofFiles (fls : List (List (RecordLine mounts))) : BinlogCtx :=
  { BinlogCtx.fresh with
    binlogFd := some (fls.length - 1)
    currBinlogFileIndex := fls.length - 1
    files := fun i => textOf ((fls[i]?).getD []) }

/-- A peer that has got the record of the first file starts at the second file. -/
theorem async_start_second : NothingSkipped (fun i => ([[lineA], [lineB]][i]?).getD []) 1
    (asyncctxInit 1 (ofFiles [[lineA], [lineB]]) none) :=
  (async_start_iff (ofFiles [[lineA], [lineB]]) _ (fun _ _ => rfl) 1).2 (by decide +kernel)

/-- A peer that has not got the record of the first file starts at the second file as well. -/
theorem async_start_skips : (asyncctxInit 1 (ofFiles [[lineB], []]) none).bIndex = 1 ∧
      ¬ NothingSkipped (fun i => ([[lineB], []][i]?).getD []) 1
        (asyncctxInit 1 (ofFiles [[lineB], []]) none) := by
  refine ⟨asyncctxInit_bIndex, fun h => ?_⟩
  have hle := h.1 0 (by rw [asyncctxInit_bIndex]; decide) lineB (by simp)
  exact absurd hle (by decide)

end

end Lfs.Binlog
