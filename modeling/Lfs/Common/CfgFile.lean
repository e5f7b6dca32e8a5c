/-
The configuration file (`cfg_file_opt.c`).

`_read_cfg_file` goes over the text in place: it ends each line with a NUL where its newline was, trims
it, and puts the name before the first `=` with the value behind it into a hash table, which may be any
one of `hash_table.c`.  A name that occurs once is never found by `hash_table_put`, so that no node is
deleted while the file is read.
-/
import Lfs.Base.InPlace
import Lfs.Common.HashTableRun

namespace Lfs.Common

open Lfs.Lib List Option TableState

/-! ### Reading the file -/

/-- The byte `'#'`. -/
def cfgComment : Byte := 35

/-- The byte `'='`. -/
def cfgEquals : Byte := 61

/-- The name and the value of the line at `pline`, after it has been trimmed. -/
def cfgEntryAt (buf : List Byte) (pline : ℕ) : Option (List Byte × List Byte) :=
  if buf[pline]? = some cfgComment ∨ buf[pline]? = some 0 then none
  else
    (strchr buf pline cfgEquals).map fun pec =>
      let keyLen := pec - pline
      let valueLen := (strAt buf pline).length - (keyLen + 1)
      ((buf.drop pline).take keyLen, (buf.drop (pec + 1)).take valueLen)

section

variable (hashFunc : List Byte → UInt32) (malloc : ℕ → ℕ)

/-- An entry is put into the table.  `malloc k` is the address of the node `k` that is allocated, and
the number of nodes is counted. -/
def putEntry (entry : Option (List Byte × List Byte)) (k : ℕ) (t : HashTable) :
    Option (ℕ × HashTable) :=
  entry.elim (some (k, t)) fun e => (t.hashTablePut hashFunc e.1 e.2 (malloc k)).map (k + 1, ·)

/-- The loop of `_read_cfg_file`, from the line at `pline` on. -/
def readCfgFile : ℕ → ℕ → List Byte → ℕ → HashTable → Option HashTable
  | 0, _, _, _, _ => none
  | fuel + 1, pline, pcont, k, t =>
    let ple := strchr pcont pline newline
    let pcont := trimAt (ple.elim pcont fun p => pcont.set p 0) pline
    (putEntry hashFunc malloc (cfgEntryAt pcont pline) k t).bind fun r =>
      ple.elim (some r.2) fun p => readCfgFile fuel (p + 1) pcont r.1 r.2

/-- `cfg_init` on a file with the bytes `text`, behind which `getFileContent` puts a NUL.  It is `none`
if memory is used that is not allocated or a loop does not end. -/
def cfgInit (text : List Byte) : Option HashTable :=
  (HashTable.hashTableInit 0 0).bind fun t =>
    readCfgFile hashFunc malloc (text.length + 1) 0 (text ++ [0]) 0 t

/-- `cfg_get_strvalue`: a value, or `NULL`. -/
def cfgGetStrvalue (name : List Byte) (t : HashTable) : Option (Option (List Byte)) :=
  (t.hashTableGet hashFunc name).map (Option.map HashData.value)

end

/-! ### The lines of the text -/

/-- A blank, a tab or a carriage return. -/
def isCfgBlank (b : Byte) : Bool := b = 32 || b = 9 || b = 13

/-- A line without the blanks at its ends. -/
def strip (line : List Byte) : List Byte := (line.dropWhile isCfgBlank).rdropWhile isCfgBlank

def lineEntry (line : List Byte) : Option (List Byte × List Byte) :=
  if (strip line).head? = some cfgComment then none else cut cfgEquals (strip line)

def cfgEntries (text : List Byte) : List (List Byte × List Byte) :=
  (text.splitOn newline).filterMap lineEntry

/-- Some line of the text defines the name as `v`. -/
def Defines (text name v : List Byte) : Prop :=
  ∃ line ∈ text.splitOn newline, (strip line).head? ≠ some cfgComment ∧ cfgEquals ∉ name ∧
    strip line = name ++ cfgEquals :: v

lemma mem_cfgEntries {text name v : List Byte} :
    (name, v) ∈ cfgEntries text ↔ Defines text name v := by
  rw [cfgEntries, mem_filterMap, Defines]
  refine exists_congr fun line => and_congr_right fun _ => ?_
  rw [lineEntry]
  by_cases hcomment : (strip line).head? = some cfgComment
  · simp [hcomment]
  · rw [if_neg hcomment, cut_eq_some]
    simp [hcomment]

lemma dropWhile_congr_of_mem {p q : Byte → Bool} {l : List Byte} (h : ∀ b ∈ l, p b = q b) :
    l.dropWhile p = l.dropWhile q := by
  induction l with
  | nil => rfl
  | cons b l ih =>
    obtain ⟨hb, hl⟩ := forall_mem_cons.1 h
    rw [dropWhile_cons, dropWhile_cons, hb, ih hl]

lemma trim_eq_strip {line : List Byte} (h : newline ∉ line) : trim line = strip line := by
  have hblank : ∀ b ∈ line, isBlank b = isCfgBlank b := by
    intro b hb
    have hne : b ≠ 10 := ne_of_mem_of_not_mem hb h
    simp only [isBlank, isCfgBlank, hne, decide_false, Bool.or_false]
    rw [Bool.or_right_comm]
  have hsub : ∀ b ∈ (line.dropWhile isCfgBlank).reverse, isBlank b = isCfgBlank b := fun b hb =>
    hblank b ((dropWhile_suffix _).subset (mem_reverse.1 hb))
  rw [trim_eq, dropWhile_congr_of_mem hblank, dropWhile_congr_of_mem hsub]
  rfl

/-! ### The loop reads the lines -/

variable {hashFunc : List Byte → UInt32} {malloc : ℕ → ℕ} {pre s w post text : List Byte}

lemma cfgEntryAt_append (hw : (0 : Byte) ∉ w) : cfgEntryAt (pre ++ w ++ 0 :: post) pre.length =
      if w.head? = some cfgComment then none else cut cfgEquals w := by
  have hget : (pre ++ w ++ 0 :: post)[pre.length]? = (w ++ 0 :: post).head? := by
    rw [append_assoc, getElem?_append_right le_rfl, Nat.sub_self, head?_eq_getElem?]
  rw [cfgEntryAt, hget, strchr_append hw, strAt_append hw]
  cases w with
  | nil => simp [cut]
  | cons b w =>
    have hb : b ≠ 0 := fun h => hw (h ▸ mem_cons_self)
    rw [cons_append, head?_cons, head?_cons]
    simp only [some_inj, hb, or_false]
    split_ifs with hcomment
    · rfl
    · cases hcut : cut cfgEquals (b :: w) with
      | none => rfl
      | some parts =>
        obtain ⟨name, v⟩ := parts
        obtain ⟨-, hparts⟩ := cut_eq_some.1 hcut
        have hname : ((pre ++ (name ++ cfgEquals :: v) ++ 0 :: post).drop pre.length).take name.length =
            name := by simp
        have hvalue : ((pre ++ (name ++ cfgEquals :: v) ++ 0 :: post).drop
            (pre.length + name.length + 1)).take v.length = v := by
          have hbuf : pre ++ (name ++ cfgEquals :: v) ++ 0 :: post =
              (pre ++ name ++ [cfgEquals]) ++ (v ++ 0 :: post) := by simp
          have hlen : pre.length + name.length + 1 = (pre ++ name ++ [cfgEquals]).length := by
            simp [add_assoc]
          rw [hbuf, hlen, drop_left, take_left]
        have hlen : (b :: w).length - (name.length + 1) = v.length := by
          rw [hparts, length_append, length_cons]
          omega
        simp only [map_some, Nat.add_sub_cancel_left, hlen]
        rw [hparts, hname, hvalue]

/-- The calls of `hash_table_put` for some entries, from the node `k` on. -/
def cfgPuts (malloc : ℕ → ℕ) (k : ℕ) (es : List (List Byte × List Byte)) : List TableOp :=
  (es.zipIdx k).map fun ei => .put ei.1.1 ei.1.2 (malloc ei.2)

def execAll (hashFunc : List Byte → UInt32) (ops : List TableOp) (t : HashTable) : Option HashTable :=
  ops.foldlM (fun t op => op.exec hashFunc t) t

lemma execAll_cons (op : TableOp) (ops : List TableOp) (t : HashTable) :
    execAll hashFunc (op :: ops) t = (op.exec hashFunc t).bind (execAll hashFunc ops) := rfl

lemma putEntry_bind (entry : Option (List Byte × List Byte)) (es : List (List Byte × List Byte))
    (k : ℕ) (t : HashTable) :
    ((putEntry hashFunc malloc entry k t).bind fun r =>
        execAll hashFunc (cfgPuts malloc r.1 es) r.2) =
      execAll hashFunc (cfgPuts malloc k (entry.toList ++ es)) t := by
  cases entry with
  | none => rfl
  | some e =>
    have hputs : cfgPuts malloc k ((some e).toList ++ es) =
        .put e.1 e.2 (malloc k) :: cfgPuts malloc (k + 1) es := rfl
    rw [hputs, execAll_cons, TableOp.exec, putEntry, elim_some]
    cases t.hashTablePut hashFunc e.1 e.2 (malloc k) with
    | none | some t' => rfl

lemma cfgEntries_of_notMem (h : newline ∉ s) : cfgEntries s = (lineEntry s).toList := by
  rw [cfgEntries, splitOn_eq_singleton h, filterMap_cons]
  cases lineEntry s with
  | none | some e => rfl

lemma cfgEntries_append {line rest : List Byte} (h : newline ∉ line) :
    cfgEntries (line ++ newline :: rest) = (lineEntry line).toList ++ cfgEntries rest := by
  have hsplit : (line ++ newline :: rest).splitOn newline = line :: rest.splitOn newline :=
    splitOnP_append_cons_of_forall_mem
      (fun b hb => by simpa using ne_of_mem_of_not_mem hb h) newline (by simp) rest
  rw [cfgEntries, hsplit, filterMap_cons]
  cases lineEntry line with
  | none | some e => rfl

lemma cfgEntryAt_trim (pre post : List Byte) (hs : (0 : Byte) ∉ s) (hline : newline ∉ s) :
    ∃ junk, trimAt (pre ++ s ++ 0 :: post) pre.length = pre ++ trim s ++ 0 :: (junk ++ post) ∧
      (trim s).length + junk.length = s.length ∧
      cfgEntryAt (pre ++ trim s ++ 0 :: (junk ++ post)) pre.length = lineEntry s := by
  obtain ⟨junk, htrim, hlen⟩ := trimAt_append pre post hs
  refine ⟨junk, htrim, hlen, ?_⟩
  rw [cfgEntryAt_append (notMem_trim hs), trim_eq_strip hline]
  rfl

lemma readCfgFile_append (hashFunc : List Byte → UInt32) (malloc : ℕ → ℕ) (pre post : List Byte)
    (hs : (0 : Byte) ∉ s) {fuel k : ℕ} {t : HashTable} (hfuel : s.length < fuel) :
    readCfgFile hashFunc malloc fuel pre.length (pre ++ s ++ 0 :: post) k t =
      execAll hashFunc (cfgPuts malloc k (cfgEntries s)) t := by
  induction fuel generalizing pre s k t with
  | zero => omega
  | succ fuel ih =>
    rw [readCfgFile, strchr_append hs]
    cases hcut : cut newline s with
    | none =>
      -- the last line
      have hline := cut_eq_none.1 hcut
      obtain ⟨junk, htrim, -, hentry⟩ := cfgEntryAt_trim pre post hs hline
      simp only [map_none, elim_none, htrim, hentry]
      rw [cfgEntries_of_notMem hline, ← append_nil (lineEntry s).toList, ← putEntry_bind]
      rfl
    | some parts =>
      obtain ⟨line, rest⟩ := parts
      obtain ⟨hline, rfl⟩ := cut_eq_some.1 hcut
      have hnul : (0 : Byte) ∉ line := fun h => hs (mem_append_left _ h)
      have hrest : (0 : Byte) ∉ rest := fun h => hs (by simp [h])
      have hset : (pre ++ (line ++ newline :: rest) ++ 0 :: post).set (pre.length + line.length) 0 =
          pre ++ line ++ 0 :: (rest ++ 0 :: post) := by
        have hbuf : pre ++ (line ++ newline :: rest) ++ 0 :: post =
            (pre ++ line) ++ newline :: (rest ++ 0 :: post) := by simp
        rw [hbuf, ← length_append, set_append]
      obtain ⟨junk, htrim, hlen, hentry⟩ := cfgEntryAt_trim pre (rest ++ 0 :: post) hnul hline
      -- the line that follows
      have hnext : pre ++ trim line ++ 0 :: (junk ++ (rest ++ 0 :: post)) =
          (pre ++ trim line ++ 0 :: junk) ++ rest ++ 0 :: post := by simp
      have hpline : pre.length + line.length + 1 = (pre ++ trim line ++ 0 :: junk).length := by
        simp only [length_append, length_cons]
        omega
      have hshort : rest.length < fuel := by
        rw [length_append, length_cons] at hfuel
        omega
      simp only [map_some, elim_some, hset, htrim, hentry]
      rw [cfgEntries_append hline, ← putEntry_bind, hnext, hpline]
      exact congrArg _ (funext fun r => ih _ hrest hshort)

/-! ### The table holds the entries -/

namespace TableState

variable {st : TableState}

lemma fst_run (ops : List TableOp) :
    (run (step hashFunc) st ops).1 = st.1.bind (execAll hashFunc ops) := by
  induction ops generalizing st with
  | nil => exact (bind_fun_some st.1).symm
  | cons op ops ih =>
    rw [run_cons, ih]
    exact bind_assoc ..

lemma Inv.atFront_of_notMem {op : TableOp} (h : st.Inv hashFunc) (hkey : op.key ∉ st.2) :
    ∀ t ∈ st.1, op.AtFront hashFunc t := by
  have hnew {t : HashTable} {bs : Buckets ℕ} (hrep : HashTable.Rep hashFunc t bs)
      (hm : HashTable.Holds t bs st.2) : t.AtFront hashFunc op.key := by
    rcases hrep.search_cases op.key with ⟨-, phdPre, hsearch⟩ | ⟨x, P, a, S, -, hbs, -, hhas, -⟩
    · intro p hp hsome
      obtain rfl : (phdPre, none) = p := some.inj (hsearch.symm.trans hp)
      exact absurd hsome (by simp)
    · refine absurd (hm.mem_iff.2 ⟨a, ?_, hhas⟩) hkey
      exact mem_flatten.2 ⟨_, mem_of_getElem? hbs, by simp⟩
  obtain ⟨t, bs, hs, hrep, hm⟩ := h
  intro t' ht'
  obtain rfl : t = t' := some.inj (hs.symm.trans ht')
  intro t₁ ht₁
  cases op with
  | put key value a =>
    obtain ⟨t₂, bs₂, ht₂, hrep₂, hm₂⟩ := hrep.resizeIfFull hm
    obtain rfl : t₂ = t₁ := some.inj (ht₂.symm.trans ht₁)
    exact hnew hrep₂ hm₂
  | delete key =>
    obtain rfl : t = t₁ := some.inj ht₁
    exact hnew hrep hm

/-- **Names that occur once.**  After the calls the map has the entries, and those it had before. -/
lemma Inv.run_cfgPuts {es : List (List Byte × List Byte)} {k : ℕ} (h : st.Inv hashFunc)
    (halloc : st.AllocatesAlong hashFunc (cfgPuts malloc k es)) (hnodup : (es.map Prod.fst).Nodup)
    (hnew : ∀ e ∈ es, e.1 ∉ st.2) :
    (run (TableState.step hashFunc) st (cfgPuts malloc k es)).Inv hashFunc ∧
      ∀ name v, (run (TableState.step hashFunc) st (cfgPuts malloc k es)).2.lookup name = some v ↔
        (name, v) ∈ es ∨ st.2.lookup name = some v := by
  induction es generalizing st k with
  | nil => exact ⟨h, fun name v => by simp [cfgPuts]⟩
  | cons e es ih =>
    obtain ⟨hput, halloc⟩ := halloc
    obtain ⟨hfirst, hnew⟩ := forall_mem_cons.1 hnew
    rw [map_cons, nodup_cons] at hnodup
    have hstep := h.step hput (h.atFront_of_notMem hfirst)
    have hmap : (st.step hashFunc (.put e.1 e.2 (malloc k))).2 = st.2.insert e.1 e.2 := rfl
    obtain ⟨hinv, hlookup⟩ := ih hstep halloc hnodup.2 fun e' he' hmem => by
      rw [hmap, AList.mem_insert] at hmem
      rcases hmem with heq | hmem
      · exact hnodup.1 (heq ▸ mem_map_of_mem he')
      · exact hnew e' he' hmem
    refine ⟨hinv, fun name v => ?_⟩
    rw [show cfgPuts malloc k (e :: es) =
      .put e.1 e.2 (malloc k) :: cfgPuts malloc (k + 1) es from rfl, run_cons, hlookup, hmap,
      mem_cons]
    by_cases hname : name = e.1
    · subst hname
      have hnone : st.2.lookup e.1 = none := AList.lookup_eq_none.2 hfirst
      rw [AList.lookup_insert, hnone]
      constructor
      · rintro (hmem | heq)
        · exact absurd (mem_map_of_mem hmem) hnodup.1
        · exact .inl (.inl (by rw [← some.inj heq]))
      · rintro ((heq | hmem) | hfalse)
        · exact .inr (by rw [← heq])
        · exact .inl hmem
        · exact absurd hfalse (by simp)
    · rw [AList.lookup_insert_ne hname]
      have hne : (name, v) ≠ e := fun heq => hname (congrArg Prod.fst heq)
      rw [or_iff_right hne]

end TableState

/-- **The configuration.**  Let the text have no NUL and define no name twice, and let `malloc` never
return an address that is in use.  Then `cfg_init` succeeds, and `cfg_get_strvalue` returns the value
that some line of the text defines, and `NULL` if there is no such line. -/
theorem cfgGetStrvalue_iff (hashFunc : List Byte → UInt32) (malloc : ℕ → ℕ) {text : List Byte}
    (hnul : (0 : Byte) ∉ text) (hkeys : ((cfgEntries text).map Prod.fst).Nodup)
    (hmalloc : (init 0 0).AllocatesAlong hashFunc (cfgPuts malloc 0 (cfgEntries text))) :
    ∃ t, cfgInit hashFunc malloc text = some t ∧ ∀ name,
      (∀ v, cfgGetStrvalue hashFunc name t = some (some v) ↔ Defines text name v) ∧
      (cfgGetStrvalue hashFunc name t = some none ↔ ¬ ∃ v, Defines text name v) := by
  obtain ⟨t₀, ht₀⟩ : ∃ t₀, HashTable.hashTableInit 0 0 = some t₀ :=
    isSome_iff_exists.1 (by decide +kernel)
  obtain ⟨hrep, hm⟩ := HashTable.Rep.hashTableInit hashFunc ht₀ (by decide)
  have hinit : (init 0 0).Inv hashFunc := ⟨t₀, _, ht₀, hrep, hm⟩
  obtain ⟨hinv, hlookup⟩ := hinit.run_cfgPuts hmalloc hkeys fun e _ => AList.notMem_empty e.1
  obtain ⟨t, ht, hagrees⟩ := hinv.refines
  have hread : cfgInit hashFunc malloc text = some t := by
    have hloop := readCfgFile_append (t := t₀) (k := 0) hashFunc malloc [] [] hnul
      text.length.lt_succ_self
    have hfirst : (init 0 0).1 = some t₀ := ht₀
    rw [fst_run, hfirst, bind_some] at ht
    rw [cfgInit, ht₀, bind_some, ← ht]
    exact hloop
  refine ⟨t, hread, fun name => ?_⟩
  have hget (v : List Byte) : (run (TableState.step hashFunc) (init 0 0)
      (cfgPuts malloc 0 (cfgEntries text))).2.lookup name = some v ↔ Defines text name v := by
    rw [hlookup, mem_cfgEntries, or_iff_left]
    exact fun h => absurd h (by simp [init])
  have hvalue : cfgGetStrvalue hashFunc name t = some _ := hagrees.get name
  rw [hvalue]
  refine ⟨fun v => ?_, ?_⟩
  · rw [some_inj]
    exact hget v
  · rw [some_inj, eq_none_iff_forall_ne_some, not_exists]
    exact forall_congr' fun v => not_congr (hget v)

/-- The lines `a=1` and `b=2` with a comment before them. -/
theorem cfgGetStrvalue_two : ∃ t, cfgInit (fun _ => 0) id [35, 10, 97, 61, 49, 10, 98, 61, 50] = some t ∧
      cfgGetStrvalue (fun _ => 0) [97] t = some (some [49]) ∧
      cfgGetStrvalue (fun _ => 0) [98] t = some (some [50]) := by
  have hentries : cfgEntries [35, 10, 97, 61, 49, 10, 98, 61, 50] =
      [([97], [49]), ([98], [50])] := by decide
  have hnul : (0 : Byte) ∉ ([35, 10, 97, 61, 49, 10, 98, 61, 50] : List Byte) := by decide
  obtain ⟨t, ht, hget⟩ := cfgGetStrvalue_iff (fun _ => 0) id hnul (by rw [hentries]; decide)
    (by rw [hentries]; decide +kernel)
  exact ⟨t, ht, ((hget [97]).1 [49]).2 (mem_cfgEntries.1 (by rw [hentries]; simp)),
    ((hget [98]).1 [50]).2 (mem_cfgEntries.1 (by rw [hentries]; simp))⟩

end Lfs.Common
