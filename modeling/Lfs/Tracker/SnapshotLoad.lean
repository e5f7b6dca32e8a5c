/-
Loading a snapshot (`__snapshot_data_load` in `ts_snapshot.c`).

A tracker that is started reads the snapshot line by line and inserts a block for each line, with
the state `off_line`.  The main result, `snapshot_round_trip`, is that a snapshot of registered servers
is loaded as it was written: the table then has the same volumes, with the same blocks in the same
order, all of them off line.
-/
import Lfs.Tracker.Snapshot

namespace Lfs.Tracker

open Lfs.Lib List Option DatasevrBlock DatasevrCluster FlushEnv

/-! ### The loader -/

def volumeBlockBinlogDatafileds : ℕ := 11

/-- `LFS_DATASERVER_MAP_INFO_SIZE`, the size of `map_info`. -/
def lfsDataserverMapInfoSize : ℕ := 33

/-- The block that is made of the columns of a line.  With three columns the other ones are pointers
that have not been set. -/
def blockOfFields : List (List Byte) → Option DatasevrBlock
  | [f0, f1, f2, f3, f4, f5, f6, f7, f8, f9, f10] =>
    some
      { blockNew with
        parentVolumeId := UInt32.ofInt (atoi (trim f0))
        blockId := UInt32.ofInt (atoi (trim f1))
        mapInfo := snprintfStr lfsDataserverMapInfoSize (trim f2)
        ipAddr := snprintfStr ipAddressSize (trim f3)
        type := atoi (trim f4)
        port := atoi (trim f5)
        weight := atoi (trim f6)
        heartBeatInterval := atoi (trim f7)
        regTime := atol (trim f8)
        startedTime := atol (trim f9)
        lastSyncSequence := atol (trim f10)
        state := .offLine }
  | _ => none

/-- The loop of `__snapshot_data_load` over the lines that `fgets` returns.  It is left at a line that
does not have the right number of columns; `none` stands for a bad pointer. -/
def loadLines : List (List Byte) → DatasevrCluster → Option DatasevrCluster
  | [], c => some c
  | sline :: ls, c =>
    if cstr sline = [] then loadLines ls c
    else
      let fields := splitStr batDataSeperator volumeBlockBinlogDatafileds (cstr sline)
      if fields.length ≠ volumeBlockBinlogDatafileds ∧
          fields.length ≠ volumeBlockBinlogDatafileds - 8 then some c
      else do
        let blk ← blockOfFields fields
        let c ← c.datasevrblockInsert blk
        loadLines ls c

/-- `__snapshot_data_load` of a tracker that has just been started. -/
def snapshotDataLoad (file : List Byte) : Option DatasevrCluster :=
  loadLines (fgetsLines 256 file) clusterInit

/-! ### A line is read as it was written -/

/-- A string that can stand in a column: it has no separator, no line end and no NUL, and no blanks at
its ends. -/
structure Column (s : List Byte) : Prop where
  separator : batDataSeperator ∉ s
  newline : newline ∉ s
  noNul : (0 : Byte) ∉ s
  head : ∀ b ∈ s.head?, isBlank b = false
  last : ∀ b ∈ s.getLast?, isBlank b = false

instance (s : List Byte) : Decidable (Column s) :=
  decidable_of_iff (batDataSeperator ∉ s ∧ Lfs.newline ∉ s ∧ (0 : Byte) ∉ s ∧
      s.head?.all (fun b => !isBlank b) = true ∧ s.getLast?.all (fun b => !isBlank b) = true)
    ⟨fun ⟨h1, h2, h3, h4, h5⟩ => ⟨h1, h2, h3, by simpa [Option.all_eq_true] using h4,
        by simpa [Option.all_eq_true] using h5⟩,
      fun h => ⟨h.1, h.2, h.3, by simpa [Option.all_eq_true] using h.head,
        by simpa [Option.all_eq_true] using h.last⟩⟩

lemma Column.trim_eq {s : List Byte} (h : Column s) : trim s = s := trim_of_head_last h.head h.last

lemma column_of_isDigit {s : List Byte} (h : ∀ b ∈ s, isDigit b = true ∨ b = 45) : Column s := by
  have hblank (b : Byte) (hb : b ∈ s) : isBlank b = false := by
    rcases h b hb with hdigit | rfl
    · exact isBlank_of_isDigit hdigit
    · decide
  have hne {c : Byte} (hc : isDigit c = false) (hc' : c ≠ 45) : c ∉ s := by
    intro hmem
    rcases h c hmem with hdigit | heq
    · rw [hc] at hdigit
      exact absurd hdigit (by simp)
    · exact hc' heq
  exact ⟨hne (by decide) (by decide), hne (by decide) (by decide), hne (by decide) (by decide),
    fun b hb => hblank b (mem_of_head? hb), fun b hb => hblank b (mem_of_getLast? hb)⟩

lemma column_decimal (n : ℕ) : Column (decimal n) :=
  column_of_isDigit fun _ hb => .inl (isDigit_of_mem_decimal hb)

lemma column_decimalInt (z : ℤ) : Column (decimalInt z) := by
  cases z with
  | ofNat n => exact column_decimal n
  | negSucc n =>
    refine column_of_isDigit fun b hb => ?_
    rcases mem_cons.1 hb with rfl | hb
    · exact .inr rfl
    · exact .inl (isDigit_of_mem_decimal hb)

/-- The numbers of a block are in the ranges of their types, and the strings fit into their arrays. -/
structure Sized (b : DatasevrBlock) : Prop where
  mapInfo : b.mapInfo.length < lfsDataserverMapInfoSize
  ipAddr : b.ipAddr.length < ipAddressSize
  ints : ∀ z ∈ [b.type, b.port, b.weight, b.heartBeatInterval], -2 ^ 31 ≤ z ∧ z < 2 ^ 31
  longs : ∀ z ∈ [b.regTime, b.startedTime, b.lastSyncSequence], -2 ^ 63 ≤ z ∧ z < 2 ^ 63

/-- The strings of such a block are columns of a line. -/
structure Storable (b : DatasevrBlock) : Prop extends Sized b where
  mapInfo_column : Column b.mapInfo
  ipAddr_column : Column b.ipAddr

def restored (b : DatasevrBlock) : DatasevrBlock :=
  { blockNew with
    parentVolumeId := b.parentVolumeId
    blockId := b.blockId
    mapInfo := b.mapInfo
    ipAddr := b.ipAddr
    type := b.type
    port := b.port
    weight := b.weight
    heartBeatInterval := b.heartBeatInterval
    regTime := b.regTime
    startedTime := b.startedTime
    lastSyncSequence := b.lastSyncSequence
    state := .offLine }

variable {b : DatasevrBlock}

lemma Storable.column (h : Storable b) {a : List Byte} (ha : a ∈ snapshotColumns b) : Column a := by
  simp only [snapshotColumns, mem_cons, not_mem_nil, or_false] at ha
  rcases ha with rfl | rfl | rfl | rfl | rfl | rfl | rfl | rfl | rfl | rfl | rfl
  · exact column_decimal _
  · exact column_decimal _
  · exact h.mapInfo_column
  · exact h.ipAddr_column
  all_goals exact column_decimalInt _

lemma snapshotLine_eq (b : DatasevrBlock) : snapshotLine b =
    intercalate [batDataSeperator] ((snapshotColumns b).dropLast ++
      [decimalInt b.lastSyncSequence ++ [newline]]) := by
  simp [snapshotLine, snapshotColumns, intercalate_cons_cons]

lemma Storable.splitStr_snapshotLine (h : Storable b) :
    splitStr batDataSeperator volumeBlockBinlogDatafileds (snapshotLine b) =
      (snapshotColumns b).dropLast ++ [decimalInt b.lastSyncSequence ++ [newline]] := by
  rw [snapshotLine_eq]
  exact splitStr_intercalate fun a ha => (h.column (dropLast_subset _ ha)).separator

lemma Storable.blockOfFields_eq (h : Storable b) :
    blockOfFields ((snapshotColumns b).dropLast ++ [decimalInt b.lastSyncSequence ++ [newline]]) =
      some (restored b) := by
  have hint {z : ℤ} (hz : z ∈ [b.type, b.port, b.weight, b.heartBeatInterval]) :
      atoi (decimalInt z) = z := by
    have hread := atoi_decimalInt (t := []) (h.ints z hz).1 (h.ints z hz).2 (by simp)
    rwa [append_nil] at hread
  have hlong {z : ℤ} (hz : z ∈ [b.regTime, b.startedTime, b.lastSyncSequence]) :
      atol (decimalInt z) = z := by
    have hread := atol_decimalInt (t := []) (h.longs z hz).1 (h.longs z hz).2 (by simp)
    rwa [append_nil] at hread
  have hid (n : UInt32) : UInt32.ofInt (atoi (trim (decimal n.toNat))) = n := by
    have hread := ofInt_atoi_decimal n (t := []) (by simp)
    rwa [(column_decimal _).trim_eq, ← append_nil (decimal _)]
  have hsequence : trim (decimalInt b.lastSyncSequence ++ [newline]) =
      decimalInt b.lastSyncSequence :=
    trim_append_newline (column_decimalInt _).head (column_decimalInt _).last
  have hstr {n : ℕ} {s : List Byte} (hs : s.length < n) : snprintfStr n s = s :=
    take_of_length_le (Nat.le_sub_one_of_lt hs)
  simp only [snapshotColumns, dropLast_cons_cons, dropLast_singleton, cons_append,
    nil_append, blockOfFields, hid, h.mapInfo_column.trim_eq,
    h.ipAddr_column.trim_eq, hstr h.mapInfo, hstr h.ipAddr, hsequence, hlong, hint, restored,
    (column_decimalInt _).trim_eq, mem_cons, true_or, or_true]

lemma notMem_intercalate {c : Byte} (hsep : c ≠ batDataSeperator)
    (hc : ∀ a ∈ snapshotColumns b, c ∉ a) :
    c ∉ intercalate [batDataSeperator] (snapshotColumns b) := by
  intro hmem
  rcases mem_intercalate hmem with heq | ⟨a, ha, hca⟩
  · exact hsep heq
  · exact hc a ha hca

lemma Storable.isLine (h : Storable b) : IsLine newline (snapshotLine b) :=
  ⟨_, notMem_intercalate (by decide) fun _ ha => (h.column ha).newline, rfl⟩

lemma Storable.cstr_snapshotLine (h : Storable b) : cstr (snapshotLine b) = snapshotLine b := by
  refine cstr_of_notMem ?_
  rw [snapshotLine, mem_append, mem_singleton]
  rintro (hmem | heq)
  · exact notMem_intercalate (by decide) (fun _ ha => (h.column ha).noNul) hmem
  · exact absurd heq (by decide)

lemma length_snapshotLine (b : DatasevrBlock) :
    (snapshotLine b).length = ((snapshotColumns b).map List.length).sum + 11 := by
  simp only [snapshotLine, snapshotColumns, intercalate_cons_cons, intercalate_singleton,
    length_append, length_singleton, map_cons, map_nil, sum_cons,
    sum_nil]
  omega

lemma Sized.length_snapshotLine (h : Sized b) : (snapshotLine b).length < 256 := by
  have hid (n : UInt32) : (decimal n.toNat).length ≤ 10 :=
    length_decimal_le (by decide) (n.toNat_lt.trans (by decide))
  have hint {z : ℤ} (hz : z ∈ [b.type, b.port, b.weight, b.heartBeatInterval]) :
      (decimalInt z).length ≤ 11 :=
    length_decimalInt_le (by decide) (lt_of_lt_of_le (by decide) (h.ints z hz).1)
      ((h.ints z hz).2.trans (by decide))
  have hlong {z : ℤ} (hz : z ∈ [b.regTime, b.startedTime, b.lastSyncSequence]) :
      (decimalInt z).length ≤ 20 :=
    length_decimalInt_le (by decide) (lt_of_lt_of_le (by decide) (h.longs z hz).1)
      ((h.longs z hz).2.trans (by decide))
  have hmap : b.mapInfo.length < 33 := h.mapInfo
  have hip : b.ipAddr.length < 16 := h.ipAddr
  have h1 := hid b.parentVolumeId
  have h2 := hid b.blockId
  have h3 := hint (z := b.type) (by simp)
  have h4 := hint (z := b.port) (by simp)
  have h5 := hint (z := b.weight) (by simp)
  have h6 := hint (z := b.heartBeatInterval) (by simp)
  have h7 := hlong (z := b.regTime) (by simp)
  have h8 := hlong (z := b.startedTime) (by simp)
  have h9 := hlong (z := b.lastSyncSequence) (by simp)
  rw [Tracker.length_snapshotLine]
  simp only [snapshotColumns, map_cons, map_nil, sum_cons, sum_nil]
  omega

/-- A block that has only been registered. -/
structure Unused (b : DatasevrBlock) : Prop where
  type : b.type = masterServer
  storable : Storable b
  restored_eq : restored b = b.setOffLine

/-! ### The snapshot is loaded as it was written -/

namespace DatasevrCluster

variable {c : DatasevrCluster} {regs : List DatasevrBlock}

/-- **Loading.**  The loader inserts a block for each line. -/
lemma Registered.loadLines (h : c.Registered regs) (hexp : c.expanding = false)
    (bs : List DatasevrBlock) (hbs : ∀ b ∈ bs, Storable b ∧ b.type = masterServer)
    (hnodup : ((regs ++ bs.map restored).map ids).Nodup) :
    ∃ c', loadLines (bs.map snapshotLine) c = some c' ∧
      c'.Registered (regs ++ bs.map restored) := by
  induction bs generalizing c regs with
  | nil => exact ⟨c, rfl, by simpa using h⟩
  | cons b bs ih =>
    obtain ⟨⟨hb, htype⟩, hbs⟩ := forall_mem_cons.1 hbs
    rw [map_cons, append_cons] at hnodup
    have hnew : ∀ b' ∈ regs, b'.ids ≠ (restored b).ids := by
      intro b' hb' hids
      rw [append_assoc, map_append, nodup_append] at hnodup
      exact hnodup.2.2 _ (mem_map_of_mem hb') _ (by simp) hids
    obtain ⟨c₁, hc₁, hreg₁, hexp₁⟩ := h.datasevrblockInsert hexp hnew htype
    obtain ⟨c', hc', hreg'⟩ := ih hreg₁ hexp₁ hbs hnodup
    refine ⟨c', ?_, ?_⟩
    · have hne : snapshotLine b ≠ [] := hb.isLine.ne_nil
      rw [map_cons, Tracker.loadLines, hb.cstr_snapshotLine, if_neg hne]
      simp only [hb.splitStr_snapshotLine, hb.blockOfFields_eq]
      rw [if_neg (by simp [snapshotColumns, volumeBlockBinlogDatafileds])]
      simp [hc₁, hc']
    · rw [map_cons, append_cons]
      exact hreg'

end DatasevrCluster

/-- A flush that gets every lock and whose system calls all succeed, of a table that does not
change. -/
def FlushEnv.quiet (c : DatasevrCluster) : FlushEnv where
  hashSize := c.hashSize
  cluster := fun _ => c
  trylock := fun _ => true
  opened := true
  written := fun _ => none
  fsync := true
  renamed := true

namespace FlushEnv

lemma snapshotFlush_quiet (c : DatasevrCluster) :
    (quiet c).snapshotFlush = some ((quiet c).blocks.map snapshotLine) :=
  snapshotFlush_eq_some_iff.2 ⟨⟨rfl, fun _ _ => rfl, rfl, rfl⟩, rfl⟩

end FlushEnv

namespace DatasevrCluster

variable {c : DatasevrCluster} {regs : List DatasevrBlock}

lemma Registered.blocks_quiet (h : c.Registered regs) :
    (quiet c).blocks = c.primaryVolumes.flatten.flatMap DatasevrVolume.blocks := by
  obtain ⟨ins, h⟩ := h
  have hrange : (range (hashsize c.hashSize)).map (fun i => c.primaryVolumes.getD i []) =
      c.primaryVolumes := by
    rw [← h.inv.primary_length]
    refine ext_getElem (by simp) fun i hi hi' => ?_
    simp [getD_eq_getElem?_getD, getElem?_eq_getElem hi']
  have hfilter : (range (hashsize c.hashSize)).filter (quiet c).trylock =
      range (hashsize c.hashSize) := filter_eq_self.2 fun _ _ => rfl
  conv_rhs => rw [← hrange]
  change ((range (hashsize c.hashSize)).filter _).flatMap _ = _
  rw [hfilter, ← flatMap_def, flatMap_assoc]
  rfl

lemma flatMap_ite_eq {α β κ : Type} [DecidableEq κ] {key : α → κ} {k : κ} {bs : List β}
    {l : List α} (hnodup : (l.map key).Nodup) :
    l.flatMap (fun a => if key a = k then bs else []) = if k ∈ l.map key then bs else [] := by
  induction l with
  | nil => rfl
  | cons a l ih =>
    rw [map_cons, nodup_cons] at hnodup
    rw [flatMap_cons, ih hnodup.2, map_cons]
    by_cases ha : key a = k
    · subst ha
      rw [if_pos rfl, if_neg hnodup.1, append_nil, if_pos mem_cons_self]
    · have hiff : k ∈ key a :: l.map key ↔ k ∈ l.map key := by simp [Ne.symm ha]
      rw [if_neg ha, nil_append, if_congr hiff rfl rfl]

lemma Registered.filter_blocks_quiet (h : c.Registered regs) (hexp : c.expanding = false)
    (vid : UInt32) : (quiet c).blocks.filter (fun b => b.parentVolumeId = vid) =
      (volumeOf regs vid).blocks := by
  rw [h.blocks_quiet, filter_flatMap]
  obtain ⟨ins, h⟩ := h
  have hperm := h.linked.perm
  rw [h.linked.old_nil hexp, flatten_nil, nil_append] at hperm
  -- a volume has only blocks of its own
  have hown {v : DatasevrVolume} (hv : v ∈ c.primaryVolumes.flatten) :
      v.blocks.filter (fun b => b.parentVolumeId = vid) =
        if v.volumeId = vid then (volumeOf regs vid).blocks else [] := by
    have hblocks := congrArg DatasevrVolume.blocks (h.volume v (hperm.mem_iff.1 hv))
    rw [hblocks]
    split_ifs with hid
    · rw [hid]
      exact filter_eq_self.2 fun b hb => (mem_filter.1 hb).2
    · refine filter_eq_nil_iff.2 fun b hb hvid => hid ?_
      exact (of_decide_eq_true (mem_filter.1 hb).2).symm.trans (of_decide_eq_true hvid)
  rw [flatMap_congr fun v hv => hown hv,
    flatMap_ite_eq ((hperm.map DatasevrVolume.volumeId).nodup_iff.2 h.inv.distinct)]
  split_ifs with hmem
  · rfl
  · -- no block has been registered for the volume
    symm
    refine filter_eq_nil_iff.2 fun b hb hvid => hmem ?_
    obtain ⟨v, hv, hid⟩ := (h.mem_iff vid).2 ⟨b, hb, of_decide_eq_true hvid⟩
    exact List.mem_map.2 ⟨v, hperm.mem_iff.2 hv, hid⟩

/-- **Round trip.**  A snapshot of a table of registered blocks is loaded with the same volumes, all
of whose blocks are off line. -/
lemma Registered.snapshotDataLoad (h : c.Registered regs) (hexp : c.expanding = false)
    (hregs : ∀ b ∈ regs, Unused b) :
    ∃ file c', (quiet c).snapshotFlush = some file ∧
      snapshotDataLoad file.flatten = some c' ∧ ∀ vid, c'.doClusterFind vid =
        (c.doClusterFind vid).map (Option.map fun v => { v with
          blocks := v.blocks.map setOffLine }) := by
  set bs := (quiet c).blocks with hbs
  have hfilter := h.filter_blocks_quiet hexp
  have hmem (b : DatasevrBlock) : b ∈ bs ↔ b ∈ regs := by
    have hiff := congrArg (b ∈ ·) (hfilter b.parentVolumeId)
    simpa [volumeOf, mem_filter] using hiff
  have hunused (b : DatasevrBlock) (hb : b ∈ bs) : Unused b := hregs b ((hmem b).1 hb)
  let r : FlushRun :=
    { quiet c with
      valid := fun _ => h.valid
      hashSize_eq := fun _ => rfl
      not_expanding := fun _ => hexp }
  have hnodup : (([] ++ bs.map restored).map ids).Nodup := by
    have hids : ids ∘ restored = ids := rfl
    rw [nil_append, List.map_map, hids]
    exact r.nodup_ids_blocks
  obtain ⟨c', hc', hreg'⟩ := registered_clusterInit.loadLines rfl bs
    (fun b hb => ⟨(hunused b hb).storable, (hunused b hb).type⟩) hnodup
  refine ⟨_, c', snapshotFlush_quiet c, ?_, fun vid => ?_⟩
  · rw [Tracker.snapshotDataLoad, fgetsLines_flatten]
    · exact hc'
    · intro l hl
      obtain ⟨b, hb, rfl⟩ := List.mem_map.1 hl
      exact ⟨(hunused b hb).storable.isLine, (hunused b hb).storable.length_snapshotLine⟩
  · rw [hreg'.doClusterFind_eq, h.doClusterFind_eq, map_some, nil_append]
    have hex : (∃ b ∈ bs.map restored, b.parentVolumeId = vid) ↔
        ∃ b ∈ regs, b.parentVolumeId = vid := by
      simp only [List.mem_map, exists_exists_and_eq_and, hmem]
      rfl
    rw [if_congr hex rfl rfl]
    split_ifs
    · -- the blocks of the volume, one by one
      have hblocks : (volumeOf (bs.map restored) vid).blocks =
          (volumeOf regs vid).blocks.map setOffLine := by
        have hmap : (volumeOf (bs.map restored) vid).blocks =
            (bs.filter fun b => b.parentVolumeId = vid).map restored := by
          rw [volumeOf, List.filter_map]
          rfl
        rw [hmap, hfilter]
        exact map_congr_left fun b hb => (hregs b (mem_filter.1 hb).1).restored_eq
      rw [map_some, ← hblocks]
      rfl
    · rfl

end DatasevrCluster

/-! ### Registered servers -/

/-- The names of a request fit into the block and can stand in a column. -/
structure DatasevrRegBodyReq.Clean (req : DatasevrRegBodyReq) : Prop where
  mapInfo : Column req.mapInfo
  mapInfo_length : req.mapInfo.length < lfsDataserverMapInfoSize
  dsIpaddr : Column req.dsIpaddr
  dsIpaddr_length : req.dsIpaddr.length < ipAddressSize

instance (req : DatasevrRegBodyReq) : Decidable req.Clean :=
  decidable_of_iff (Column req.mapInfo ∧ req.mapInfo.length < lfsDataserverMapInfoSize ∧
      Column req.dsIpaddr ∧ req.dsIpaddr.length < ipAddressSize)
    ⟨fun ⟨h1, h2, h3, h4⟩ => ⟨h1, h2, h3, h4⟩, fun ⟨h1, h2, h3, h4⟩ => ⟨h1, h2, h3, h4⟩⟩

variable {req : DatasevrRegBodyReq}

lemma int32_mem (n : Int32) : -2 ^ 31 ≤ n.toInt ∧ n.toInt < 2 ^ 31 := ⟨n.le_toInt, n.toInt_lt⟩

lemma int64_mem (n : Int64) : -2 ^ 63 ≤ n.toInt ∧ n.toInt < 2 ^ 63 := ⟨n.le_toInt, n.toInt_lt⟩

lemma unused_ofRegister (h : req.Clean) (vid bid : UInt32) :
    Unused ((ofRegister vid bid req).register req) where
  type := rfl
  storable := by
    have hzero32 : -2 ^ 31 ≤ (0 : ℤ) ∧ (0 : ℤ) < 2 ^ 31 := by decide
    have hzero64 : -2 ^ 63 ≤ (0 : ℤ) ∧ (0 : ℤ) < 2 ^ 63 := by decide
    refine ⟨⟨h.mapInfo_length, h.dsIpaddr_length, fun z hz => ?_, fun z hz => ?_⟩, h.mapInfo,
      h.dsIpaddr⟩
    · simp only [mem_cons, not_mem_nil, or_false] at hz
      rcases hz with rfl | rfl | rfl | rfl
      · exact hzero32
      · exact int32_mem req.dsPort
      · exact int32_mem req.weight
      · exact int32_mem req.heartBeatInterval
    · simp only [mem_cons, not_mem_nil, or_false] at hz
      rcases hz with rfl | rfl | rfl
      · exact int64_mem req.regTime
      · exact int64_mem req.startedTime
      · exact hzero64
  restored_eq := rfl

lemma Unused.register {b : DatasevrBlock} (h : Unused b) : Unused (b.register req) where
  type := h.type
  storable := by
    obtain ⟨⟨hmap, hip, hints, hlongs⟩, hmapcol, hipcol⟩ := h.storable
    refine ⟨⟨hmap, hip, fun z hz => ?_, hlongs⟩, hmapcol, hipcol⟩
    simp only [mem_cons, not_mem_nil, or_false] at hz
    rcases hz with rfl | rfl | rfl | rfl
    · exact hints b.type (by simp)
    · exact hints b.port (by simp)
    · exact int32_mem req.weight
    · exact int32_mem req.heartBeatInterval
  restored_eq := by
    have heq := h.restored_eq
    have hreg : restored (b.register req) =
        { restored b with
          weight := req.weight.toInt
          heartBeatInterval := req.heartBeatInterval.toInt } := rfl
    rw [hreg, heq]
    rfl

lemma registrations_unused {hashFunc : List Byte → UInt32} {t : Clusters}
    {reqs : List DatasevrRegBodyReq} (hreqs : ∀ req ∈ reqs, req.Clean)
    (ht : ∀ b ∈ t.blocks, Unused b) : ∀ b ∈ (registrations hashFunc t reqs).blocks, Unused b := by
  induction reqs generalizing t with
  | nil => exact ht
  | cons req reqs ih =>
    obtain ⟨hreq, hreqs⟩ := forall_mem_cons.1 hreqs
    refine ih hreqs fun b hb => ?_
    simp only [Clusters.handleCmdRegister] at hb
    cases hfind : t.datasevrblockFind hashFunc req.mapInfo req.dsIpaddr with
    | some i =>
      simp only [hfind, Clusters.modifyBlock, mem_iff_getElem?, getElem?_modify] at hb
      obtain ⟨j, hj⟩ := hb
      obtain ⟨b', hb', rfl⟩ := map_eq_some_iff.1 hj
      have hunused := ht b' (mem_of_getElem? hb')
      split_ifs
      · exact hunused.register
      · exact hunused
    | none =>
      simp only [hfind] at hb
      rcases mem_append.1 hb with hb | hb
      · exact ht b hb
      · rw [mem_singleton.1 hb]
        exact unused_ofRegister hreq _ _

/-- **Round trip of the snapshot.**  After a run of registrations, with expansions between them, a
snapshot that is written without a fault is loaded as it was: every volume is found again exactly if
it was there, with the same master and the same blocks in the same order, and all blocks are off
line. -/
theorem snapshot_round_trip (hashFunc : List Byte → UInt32) (ops : List RegisterOp)
    (hops : Along (RegisterOp.step hashFunc) (fun c op _ => RegisterOp.Enabled c op)
      (some clusterInit) ops)
    (hclean : ∀ req, RegisterOp.register req ∈ ops → req.Clean) :
    ∃ c, run (RegisterOp.step hashFunc) (some clusterInit) ops = some c ∧
      (c.expanding = false → ∃ file c', (quiet c).snapshotFlush = some file ∧
        snapshotDataLoad file.flatten = some c' ∧ ∀ vid, c'.doClusterFind vid =
          (c.doClusterFind vid).map (Option.map fun v => { v with
            blocks := v.blocks.map setOffLine })) := by
  obtain ⟨c, hc, hreg⟩ := DatasevrCluster.registered_clusterInit.run (t := .start) ops hops
  refine ⟨c, hc, fun hexp => hreg.snapshotDataLoad hexp
    (registrations_unused (fun req hreq => ?_) (by simp [Clusters.start]))⟩
  obtain ⟨op, hop, heq⟩ := mem_filterMap.1 hreq
  cases op with
  | register req' =>
    obtain rfl := some.inj heq
    exact hclean _ hop
  | expand | migrate => exact nomatch heq

/-- Servers of three volumes, the expansion that the third volume sets off, and a registration with
another weight. -/
def threeVolumes : List RegisterOp :=
  [.register ⟨[65], [49], 80, 1, 30, 5, 6⟩, .register ⟨[65], [50], 81, 2, 30, 7, 8⟩,
    .register ⟨[66], [49], 80, 1, 30, -9, 9⟩, .register ⟨[67], [51], 80, 1, 30, 9, 9⟩, .expand,
    .migrate, .migrate, .migrate, .migrate, .register ⟨[65], [50], 81, -3, 30, 7, 8⟩]

theorem snapshot_round_trip_threeVolumes :
    ∃ c, run (RegisterOp.step fun bs => (bs.headD 0).toUInt32)
        (some clusterInit) threeVolumes = some c ∧ c.expanding = false ∧
      ∃ file c', (quiet c).snapshotFlush = some file ∧
        snapshotDataLoad file.flatten = some c' ∧ ∀ vid, c'.doClusterFind vid =
          (c.doClusterFind vid).map (Option.map fun v => { v with
            blocks := v.blocks.map setOffLine }) := by
  have hclean : ∀ op ∈ threeVolumes, ∀ req ∈ op.request, req.Clean := by decide +kernel
  obtain ⟨c, hc, hload⟩ := snapshot_round_trip (fun bs => (bs.headD 0).toUInt32) threeVolumes
    (by decide +kernel) fun req hreq => hclean _ hreq req rfl
  have hexp : ∀ c ∈ run (RegisterOp.step fun bs => (bs.headD 0).toUInt32)
      (some clusterInit) threeVolumes, c.expanding = false := by decide +kernel
  exact ⟨c, hc, hexp c hc, hload (hexp c hc)⟩

end Lfs.Tracker
