/-
The mark file of a reader (`sync_mark_file_batdata_write` and `__mark_file_batdata_load` in
`ds_binlog.c`).

The mark is one line, `b_index|last_timestamp|b_offset|sync_count`, and the file is
truncated before it is written, so that a crash leaves any prefix of the line.  The loader
takes a line only if it has four columns.  The third separator stands behind the offset, so
a prefix with four columns has the whole offset, and any other prefix leaves the position
at the front of the first file.
-/
import Lfs.Base.Text
import Lfs.Binlog.Reader

namespace Lfs.Binlog

open Lfs.Lib List

namespace SyncCtx

variable {s z : SyncCtx} {t line : List Byte} {lines : List (List Byte)}

/-- The columns of the mark up to the offset. -/
def batHead (s : SyncCtx) : List Byte :=
  decimal s.bIndex ++ batDataSeperator :: decimalInt s.lastTimestamp ++
    batDataSeperator :: decimal s.bOffset

lemma batdata_eq (s : SyncCtx) :
    s.batdata = s.batHead ++ batDataSeperator :: (decimal s.syncCount ++ [newline]) := by
  simp [batdata, batHead]

lemma count_batHead (s : SyncCtx) : s.batHead.count batDataSeperator = 2 := by
  simp [batHead, count_append, count_eq_zero.2 (separator_notMem_decimal _),
    count_eq_zero.2 (separator_notMem_decimalInt _)]

lemma nul_notMem_batdata (s : SyncCtx) : (0 : Byte) ∉ s.batdata := by
  have hdecimal (n : ℕ) : (0 : Byte) ∉ decimal n := fun h =>
    absurd (isDigit_of_mem_decimal h) (by decide)
  have hint : (0 : Byte) ∉ decimalInt s.lastTimestamp := fun h =>
    (mem_decimalInt h).elim (fun heq => absurd heq (by decide)) fun hd => absurd hd (by decide)
  have hsep : (0 : Byte) ≠ batDataSeperator := by decide
  have hnl : (0 : Byte) ≠ newline := by decide
  simp [batdata, hdecimal, hint, hsep, hnl]

lemma loadBatdata_frame (lines : List (List Byte)) (z : SyncCtx) :
    (loadBatdata lines z).bBuff = z.bBuff ∧ (loadBatdata lines z).markFile = z.markFile := by
  induction lines generalizing z with
  | nil => exact ⟨rfl, rfl⟩
  | cons line lines ih =>
    rw [loadBatdata]
    split_ifs
    · exact ih z
    · split
      · exact ih _
      · exact ⟨rfl, rfl⟩

/-! ### One line -/

lemma loadBatdata_cons_of_ne (hnul : (0 : Byte) ∉ line) (hne : line ≠ [])
    (hcols : (splitStr batDataSeperator 4 line).length ≠ 4) :
    loadBatdata (line :: lines) z = z := by
  rw [loadBatdata, cstr_of_notMem hnul, if_neg hne]
  split
  · next heq => exact absurd (congrArg List.length heq) hcols
  · rfl

lemma loadBatdata_of_notMem (hnul : (0 : Byte) ∉ t) (hsep : batDataSeperator ∉ t) :
    loadBatdata (fgetsLines binlogRecordSize t) z = z := by
  by_cases ht : t = []
  · subst ht
    rfl
  obtain ⟨p, t', rfl, hp, hlines⟩ := fgetsLines_cons binlogRecordSize ht
  rw [mem_append, not_or] at hnul hsep
  rw [hlines]
  refine loadBatdata_cons_of_ne hnul.1 hp (ne_of_lt ?_)
  have hle := length_splitStr_le batDataSeperator 4 p
  rw [count_eq_zero.2 hsep.1] at hle
  omega

lemma loadBatdata_cons_batHead {c : List Byte}
    (hnul : (0 : Byte) ∉ s.batHead ++ batDataSeperator :: c) :
    loadBatdata ((s.batHead ++ batDataSeperator :: c) :: lines) z =
      loadBatdata lines { z with
        bIndex := (atoi (trim (decimal s.bIndex))).toNat
        lastTimestamp := atol (trim (decimalInt s.lastTimestamp))
        bOffset := (atol (trim (decimal s.bOffset))).toNat
        syncCount := (atol (trim c)).toNat
        lastSyncCount := (atol (trim c)).toNat } := by
  have hsplit : splitStr batDataSeperator 4 (s.batHead ++ batDataSeperator :: c) =
      [decimal s.bIndex, decimalInt s.lastTimestamp, decimal s.bOffset, c] := by
    simp [batHead, splitStr, cut_append (separator_notMem_decimal _),
      cut_append (separator_notMem_decimalInt _)]
  rw [loadBatdata, cstr_of_notMem hnul, if_neg (by simp), hsplit]

/-! ### A mark that was written in part -/

/-- **A torn mark.** Whatever part of the mark has reached the file, the position that is
loaded is that of the mark or the front of the first file. -/
lemma markFileBatdataLoad_of_torn (hindex : s.bIndex < 2 ^ 31) (hoffset : s.bOffset < 2 ^ 63)
    (ht : t <+: s.batdata) :
    ((zeroSyncCtx (some t)).markFileBatdataLoad.bIndex = 0 ∧
      (zeroSyncCtx (some t)).markFileBatdataLoad.bOffset = 0) ∨
    ((zeroSyncCtx (some t)).markFileBatdataLoad.bIndex = s.bIndex ∧
      (zeroSyncCtx (some t)).markFileBatdataLoad.bOffset = s.bOffset) := by
  have hload : (zeroSyncCtx (some t)).markFileBatdataLoad =
      loadBatdata (fgetsLines binlogRecordSize t) (zeroSyncCtx (some t)) := rfl
  rw [hload]
  by_cases hnil : t = []
  · subst hnil
    exact .inl ⟨rfl, rfl⟩
  obtain ⟨p, t', rfl, hp, hlines⟩ := fgetsLines_cons binlogRecordSize hnil
  have hnul : (0 : Byte) ∉ p ++ t' := fun h => s.nul_notMem_batdata (ht.subset h)
  rw [mem_append, not_or] at hnul
  rw [hlines]
  have hpre : p <+: s.batdata := (prefix_append p t').trans ht
  rw [batdata_eq] at hpre
  -- the first piece ends before or behind the third separator
  by_cases hshort : p.length ≤ s.batHead.length
  · refine .inl ?_
    have hhead : p <+: s.batHead :=
      prefix_of_prefix_length_le hpre (prefix_append _ _) hshort
    rw [loadBatdata_cons_of_ne hnul.1 hp (ne_of_lt ?_)]
    · exact ⟨rfl, rfl⟩
    · have hle := length_splitStr_le batDataSeperator 4 p
      have hcount := hhead.sublist.count_le batDataSeperator
      rw [s.count_batHead] at hcount
      omega
  · refine .inr ?_
    have hlong : s.batHead ++ [batDataSeperator] <+: p := by
      refine prefix_of_prefix_length_le ?_ hpre (by simp; omega)
      exact ⟨decimal s.syncCount ++ [newline], by simp⟩
    obtain ⟨c, rfl⟩ := hlong
    simp only [append_assoc, cons_append, nil_append] at hnul ht ⊢
    -- what is behind the first piece has no separator
    have hrest : batDataSeperator ∉ t' := by
      rw [batdata_eq, prefix_append_right_inj, cons_prefix_cons] at ht
      intro hmem
      have hmem' : batDataSeperator ∈ decimal s.syncCount ++ [newline] :=
        ht.2.subset (mem_append_right c hmem)
      rcases mem_append.1 hmem' with hmem' | hmem'
      · exact separator_notMem_decimal _ hmem'
      · exact absurd (mem_singleton.1 hmem') (by decide)
    rw [loadBatdata_cons_batHead hnul.1, loadBatdata_of_notMem hnul.2 hrest]
    have hatoi : atoi (decimalInt s.bIndex ++ []) = s.bIndex :=
      atoi_decimalInt (by omega) (by omega) (by simp)
    have hatol : atol (decimal s.bOffset ++ []) = s.bOffset := atol_decimal hoffset (by simp)
    rw [append_nil] at hatoi hatol
    simp only [trim_decimal, hatol, Int.toNat_natCast, and_true]
    exact congrArg Int.toNat hatoi

/-! ### A mark that was written as a whole -/

/-- The numbers of the mark fit into the types with which they are read back. -/
structure Markable (s : SyncCtx) : Prop where
  index : s.bIndex < 2 ^ 31
  timestamp : -2 ^ 63 ≤ s.lastTimestamp ∧ s.lastTimestamp < 2 ^ 63
  offset : s.bOffset < 2 ^ 63
  count : s.syncCount < 2 ^ 63

lemma newline_notMem_decimal (n : ℕ) : newline ∉ decimal n := fun hmem =>
  absurd (isBlank_of_mem_decimal hmem) (by decide)

lemma fgetsLines_batdata (h : s.Markable) : fgetsLines binlogRecordSize s.batdata = [s.batdata] := by
  have hline : IsLine newline s.batdata := by
    refine ⟨s.batHead ++ batDataSeperator :: decimal s.syncCount, ?_, by simp [batdata_eq]⟩
    have hint : newline ∉ decimalInt s.lastTimestamp := fun hmem =>
      absurd (isBlank_of_mem_decimalInt hmem) (by decide)
    have hsep : newline ≠ batDataSeperator := by decide
    simp [batHead, newline_notMem_decimal, hint, hsep]
  have hlen : s.batdata.length < binlogRecordSize := by
    have hindex : (decimal s.bIndex).length ≤ 10 :=
      length_decimal_le (by simp) (h.index.trans (by norm_num))
    have htimestamp : (decimalInt s.lastTimestamp).length ≤ 20 :=
      length_decimalInt_le (k := 19) (by simp) (by have := h.timestamp.1; omega)
        (by have := h.timestamp.2; omega)
    have hoffset : (decimal s.bOffset).length ≤ 19 :=
      length_decimal_le (by simp) (h.offset.trans (by norm_num))
    have hcount : (decimal s.syncCount).length ≤ 19 :=
      length_decimal_le (by simp) (h.count.trans (by norm_num))
    simp only [batdata, binlogRecordSize, length_append, length_cons, length_nil]
    omega
  simpa using @fgetsLines_flatten binlogRecordSize [s.batdata] (by simpa using ⟨hline, hlen⟩)

lemma markFileBatdataLoad_batdata (h : s.Markable) :
    (zeroSyncCtx (some s.batdata)).markFileBatdataLoad =
      { zeroSyncCtx (some s.batdata) with
        bIndex := s.bIndex
        lastTimestamp := s.lastTimestamp
        bOffset := s.bOffset
        syncCount := s.syncCount
        lastSyncCount := s.syncCount } := by
  have hload : (zeroSyncCtx (some s.batdata)).markFileBatdataLoad =
      loadBatdata (fgetsLines binlogRecordSize s.batdata) (zeroSyncCtx (some s.batdata)) := rfl
  have hnul := s.nul_notMem_batdata
  have hatoi : atoi (decimalInt s.bIndex ++ []) = s.bIndex :=
    atoi_decimalInt (by omega) (by have := h.index; omega) (by simp)
  have htimestamp : atol (decimalInt s.lastTimestamp ++ []) = s.lastTimestamp :=
    atol_decimalInt h.timestamp.1 h.timestamp.2 (by simp)
  have hoffset : atol (decimal s.bOffset ++ []) = s.bOffset := atol_decimal h.offset (by simp)
  have hcount : atol (decimal s.syncCount ++ []) = s.syncCount := atol_decimal h.count (by simp)
  have htrim : trim (decimal s.syncCount ++ [newline]) = decimal s.syncCount :=
    trim_append_newline (fun _ hb => isBlank_of_mem_decimal (mem_of_head? hb))
      fun _ hb => isBlank_of_mem_decimal (mem_of_getLast? hb)
  rw [append_nil] at hatoi htimestamp hoffset hcount
  have hindex : (atoi (decimal s.bIndex)).toNat = s.bIndex := congrArg Int.toNat hatoi
  rw [hload, fgetsLines_batdata h]
  rw [batdata_eq] at hnul ⊢
  rw [loadBatdata_cons_batHead hnul]
  simp only [loadBatdata, trim_decimal, trim_decimalInt, htrim, hindex, htimestamp, hoffset, hcount,
    Int.toNat_natCast]

end SyncCtx

end Lfs.Binlog
