/-
Registrations of one dataserver at the same time.

The workers of the tracker take the lock of the volume for the lookup of a block and again for its
insertion, and release it in between.  Two workers that both look up a block before one of them has
inserted it will both insert it.

For this no more is needed of the table than its invariant: the blocks are counted in the volume that
a lookup finds.
-/
import Lfs.Lib.Workers
import Lfs.Tracker.Registry

namespace Lfs.Tracker

open Lfs.Lib List Option

/-! ### The workers -/

/-- Where a worker is in `handle_cmd_register`. -/
inductive RegisterPc where
  /-- Before `cluster_datasevrblock_byid_find`. -/
  | lookup
  /-- Before `cluster_datasevrblock_insert`. -/
  | insert
  /-- Before the block behind its pointer is written, the block `i` of the volume. -/
  | write (i : ℕ)
  | done
deriving DecidableEq

structure RegisterWorker where
  req : DatasevrRegBodyReq
  pc : RegisterPc
deriving DecidableEq

namespace DatasevrCluster

/-- The blocks of the volume that a lookup finds. -/
def blocksOf (vid : UInt32) (c : DatasevrCluster) : List DatasevrBlock :=
  match c.doClusterFind vid with
  | some (some dv) => dv.blocks
  | _ => []

/-- The number of blocks with the id `bid`. -/
def carried (vid bid : UInt32) (c : DatasevrCluster) : ℕ :=
  (c.blocksOf vid).countP fun b => b.blockId == bid

/-- A volume that has to be made will be in the range of the table. -/
def Fits (vid : UInt32) (c : DatasevrCluster) : Prop :=
  c.expanding = true → c.doClusterFind vid = some none →
    bucket vid c.hashSize < hashsize (c.hashSize - 1)

instance (vid : UInt32) : DecidablePred (Fits vid) := fun c =>
  inferInstanceAs (Decidable (c.expanding = true → c.doClusterFind vid = some none → _ < _))

def registerStep (hashFunc : List Byte → UInt32) (w : RegisterWorker) (c : DatasevrCluster) :
    Option (DatasevrCluster × RegisterPc) :=
  let vid := hashFunc w.req.mapInfo
  let bid := hashFunc w.req.dsIpaddr
  match w.pc with
  | .lookup =>
    (c.doClusterFind vid).map fun dv =>
      match dv.bind fun dv => dv.blocks.findIdx? fun b => b.blockId == bid with
      | some i => (c, .write i)
      | none => (c, .insert)
  | .insert =>
    -- the new block is the last one of the volume
    (c.datasevrblockInsert (.ofRegister vid bid w.req)).map fun c' =>
      (c', .write (c.blocksOf vid).length)
  | .write i => some (c.modifyVolume vid (.modifyBlock i (.register w.req)), .done)
  | .done => some (c, .done)

end DatasevrCluster

/-- The table, `none` once an index was out of range, and the workers. -/
structure RegisterRace where
  cluster : Option DatasevrCluster
  workers : List RegisterWorker

namespace RegisterRace

section Race

variable (hashFunc : List Byte → UInt32) (mapInfo dsIpaddr : List Byte)

/-- Requests of the server `dsIpaddr` of the volume `mapInfo`, one for each worker. -/
def start (c : DatasevrCluster) (reqs : List DatasevrRegBodyReq) : RegisterRace where
  cluster := some c
  workers := reqs.map fun req => ⟨{ req with mapInfo := mapInfo, dsIpaddr := dsIpaddr }, .lookup⟩

/-- A step of the worker `n`. -/
def step (r : RegisterRace) (n : ℕ) : RegisterRace :=
  match r.cluster, r.workers[n]? with
  | some c, some w =>
    match c.registerStep hashFunc w with
    | some (c, pc) => ⟨some c, r.workers.set n { w with pc := pc }⟩
    | none => ⟨none, r.workers⟩
  | _, _ => r

def Finished (r : RegisterRace) : Prop := ∀ w ∈ r.workers, w.pc = .done

instance : DecidablePred Finished := fun r =>
  inferInstanceAs (Decidable (∀ w ∈ r.workers, w.pc = .done))

/-- The volume has one block with the id of the server. -/
def OneBlock (r : RegisterRace) : Prop :=
  r.cluster.elim False fun c => c.carried (hashFunc mapInfo) (hashFunc dsIpaddr) = 1

instance : DecidablePred (OneBlock hashFunc mapInfo dsIpaddr)
  | ⟨none, _⟩ => isFalse id
  | ⟨some c, _⟩ => inferInstanceAs (Decidable (c.carried _ _ = 1))

/-- A block is looked up only if no worker is about to insert it, and a volume is made only in the
range of the table. -/
def Alone (r : RegisterRace) (n : ℕ) : Prop :=
  ∀ w ∈ r.workers[n]?, (w.pc = .lookup → ∀ w' ∈ r.workers, w'.pc ≠ .insert) ∧
    (w.pc = .insert → ∀ c ∈ r.cluster, c.Fits (hashFunc mapInfo))

instance (r : RegisterRace) (n : ℕ) : Decidable (r.Alone hashFunc mapInfo n) :=
  inferInstanceAs (Decidable (∀ w ∈ r.workers[n]?, _ ∧ _))

end Race

end RegisterRace

/-! ### What a step does to the blocks -/

namespace DatasevrCluster

variable {c : DatasevrCluster} {ins : List DatasevrVolume} {b : DatasevrBlock} {vid : UInt32}

lemma Inv.doClusterFind_modifyVolume {f : DatasevrVolume → DatasevrVolume} (h : Inv c ins)
    (hf : ∀ v, (f v).volumeId = v.volumeId) (vid : UInt32) :
    (c.modifyVolume vid f).doClusterFind vid = (c.doClusterFind vid).map (Option.map f) := by
  rw [(h.modifyVolume hf).doClusterFind_eq, h.doClusterFind_eq, map_some, find?_map]
  congr 1
  have hcomp : (fun v : DatasevrVolume => v.volumeId == vid) ∘
      (fun v => if v.volumeId = vid then f v else v) = fun v => v.volumeId == vid := by
    funext v
    rw [Function.comp_apply]
    split_ifs
    · rw [hf]
    · rfl
  rw [hcomp]
  cases hfind : ins.find? fun v => v.volumeId == vid with
  | none => rfl
  | some v =>
    have hid : v.volumeId = vid := by simpa using find?_some hfind
    exact congrArg some (if_pos hid)

lemma Inv.blocksOf_modifyVolume {f : DatasevrVolume → DatasevrVolume} {dv : DatasevrVolume}
    (h : Inv c ins) (hf : ∀ v, (f v).volumeId = v.volumeId)
    (hfind : c.doClusterFind vid = some (some dv)) :
    (c.modifyVolume vid f).blocksOf vid = (f dv).blocks := by
  rw [blocksOf, h.doClusterFind_modifyVolume hf, hfind]
  rfl

lemma blocks_doInsert (b : DatasevrBlock) (dv : DatasevrVolume) :
    ∃ b', b'.blockId = b.blockId ∧ (dv.doInsert b).blocks = dv.blocks ++ [b'] := by
  rw [DatasevrVolume.doInsert]
  split_ifs
  · exact ⟨{ b with type := masterServer }, rfl, rfl⟩
  · exact ⟨b, rfl, rfl⟩

/-- **An insertion** adds a block to the volume. -/
lemma Inv.datasevrblockInsert (h : Inv c ins) (hfits : c.Fits b.parentVolumeId) :
    ∃ c' ins' b', c.datasevrblockInsert b = some c' ∧ Inv c' ins' ∧ b'.blockId = b.blockId ∧
      c'.blocksOf b.parentVolumeId = c.blocksOf b.parentVolumeId ++ [b'] := by
  have hfind := h.doClusterFind_eq b.parentVolumeId
  cases hv : ins.find? fun v => v.volumeId == b.parentVolumeId with
  | some v =>
    rw [hv] at hfind
    obtain ⟨b', hb', hblocks⟩ := blocks_doInsert b v
    refine ⟨c.modifyVolume b.parentVolumeId (.doInsert b), _, b', ?_,
      h.modifyVolume volumeId_doInsert, hb', ?_⟩
    · simp only [DatasevrCluster.datasevrblockInsert, hfind, bind_eq_bind, bind_some]
    · rw [h.blocksOf_modifyVolume volumeId_doInsert hfind, hblocks, blocksOf, hfind]
  | none =>
    rw [hv] at hfind
    have hnew : ∀ v ∈ ins, v.volumeId ≠ (volumeWithId b.parentVolumeId).volumeId :=
      fun v hmem hid => find?_eq_none.1 hv v hmem (beq_iff_eq.2 hid)
    obtain ⟨c₁, hc₁, hinv₁⟩ := h.doClusterInsert hnew fun hexp => hfits hexp hfind
    have hfind₁ : c₁.doClusterFind b.parentVolumeId =
        some (some (volumeWithId b.parentVolumeId)) := by
      rw [hinv₁.doClusterFind_eq, find?_cons_of_pos]
      exact beq_self_eq_true _
    obtain ⟨b', hb', hblocks⟩ := blocks_doInsert b (volumeWithId b.parentVolumeId)
    refine ⟨c₁.modifyVolume b.parentVolumeId (.doInsert b), _, b', ?_,
      hinv₁.modifyVolume volumeId_doInsert, hb', ?_⟩
    · simp only [DatasevrCluster.datasevrblockInsert, hfind, hc₁, bind_eq_bind, bind_some]
    · rw [hinv₁.blocksOf_modifyVolume volumeId_doInsert hfind₁, hblocks, blocksOf, hfind]
      rfl

lemma Inv.datasevrblockInsert_eq_none (h : Inv c ins) (hfits : ¬ c.Fits b.parentVolumeId) :
    c.datasevrblockInsert b = none := by
  simp only [Fits, Classical.not_imp, not_lt] at hfits
  obtain ⟨hexp, hfind, hrange⟩ := hfits
  have hnone : c.doClusterInsert (volumeWithId b.parentVolumeId) = none :=
    h.doClusterInsert_eq_none hexp hrange
  simp only [DatasevrCluster.datasevrblockInsert, hfind, hnone, bind_eq_bind, bind_some, bind_none]

lemma Inv.carried_write (h : Inv c ins) (vid bid : UInt32) (i : ℕ) (req : DatasevrRegBodyReq) :
    (c.modifyVolume vid (.modifyBlock i (.register req))).carried vid bid = c.carried vid bid := by
  have hfind := h.doClusterFind_modifyVolume (f := .modifyBlock i (.register req)) (fun _ => rfl) vid
  rw [carried, carried, blocksOf, blocksOf, hfind]
  cases c.doClusterFind vid with
  | none => rfl
  | some dv =>
    cases dv with
    | none => rfl
    | some dv =>
      have hids := map_modify_frame (f := .register req) DatasevrBlock.blockId (fun _ => rfl)
        dv.blocks i
      have hcount (l : List DatasevrBlock) : l.countP (fun b => b.blockId == bid) =
          (l.map DatasevrBlock.blockId).countP fun id => id == bid := by
        rw [countP_map]
        rfl
      change (dv.blocks.modify i _).countP _ = dv.blocks.countP _
      rw [hcount, hcount, hids]

lemma Inv.registerStep_lookup (h : Inv c ins) (hashFunc : List Byte → UInt32)
    (req : DatasevrRegBodyReq) :
    (∃ i, c.registerStep hashFunc ⟨req, .lookup⟩ = some (c, .write i) ∧
        0 < c.carried (hashFunc req.mapInfo) (hashFunc req.dsIpaddr)) ∨
      c.registerStep hashFunc ⟨req, .lookup⟩ = some (c, .insert) ∧
        c.carried (hashFunc req.mapInfo) (hashFunc req.dsIpaddr) = 0 := by
  have hfind := h.doClusterFind_eq (hashFunc req.mapInfo)
  cases hv : ins.find? fun v => v.volumeId == hashFunc req.mapInfo with
  | none =>
    rw [hv] at hfind
    refine .inr ⟨?_, ?_⟩
    · simp only [registerStep, hfind, map_some, bind_none]
    · rw [carried, blocksOf, hfind]
      rfl
  | some v =>
    rw [hv] at hfind
    have hcarried : c.carried (hashFunc req.mapInfo) (hashFunc req.dsIpaddr) =
        v.blocks.countP fun b => b.blockId == hashFunc req.dsIpaddr := by
      rw [carried, blocksOf, hfind]
    rw [hcarried]
    cases hi : v.blocks.findIdx? fun b => b.blockId == hashFunc req.dsIpaddr with
    | none =>
      refine .inr ⟨?_, ?_⟩
      · simp only [registerStep, hfind, map_some, bind_some, hi]
      · rw [countP_eq_zero]
        intro b hb
        rw [findIdx?_eq_none_iff.1 hi b hb]
        exact Bool.false_ne_true
    | some i =>
      refine .inl ⟨i, ?_, ?_⟩
      · simp only [registerStep, hfind, map_some, bind_some, hi]
      · obtain ⟨hlt, hid, -⟩ := findIdx?_eq_some_iff_getElem.1 hi
        exact countP_pos_iff.2 ⟨_, getElem_mem hlt, hid⟩

/-- An insertion that stays in the table adds a block with the id of the server. -/
lemma Inv.registerStep_insert (h : Inv c ins) {hashFunc : List Byte → UInt32}
    {req : DatasevrRegBodyReq} (hfits : c.Fits (hashFunc req.mapInfo)) :
    ∃ c' ins' i, c.registerStep hashFunc ⟨req, .insert⟩ = some (c', .write i) ∧ Inv c' ins' ∧
      c'.carried (hashFunc req.mapInfo) (hashFunc req.dsIpaddr) =
        c.carried (hashFunc req.mapInfo) (hashFunc req.dsIpaddr) + 1 := by
  obtain ⟨c', ins', b', hc', hinv', hid, hblocks⟩ := h.datasevrblockInsert
    (b := .ofRegister (hashFunc req.mapInfo) (hashFunc req.dsIpaddr) req) hfits
  change b'.blockId = hashFunc req.dsIpaddr at hid
  change c'.blocksOf (hashFunc req.mapInfo) = c.blocksOf (hashFunc req.mapInfo) ++ [b'] at hblocks
  refine ⟨c', ins', (c.blocksOf (hashFunc req.mapInfo)).length, ?_, hinv', ?_⟩
  · simp only [registerStep, hc', map_some]
  · rw [carried, carried, hblocks, countP_append, countP_singleton, if_pos (beq_iff_eq.2 hid)]

end DatasevrCluster

/-! ### Counting -/

/-- What decides the outcome of a race: the number of blocks of the server, of the workers that are
about to insert one, and of those that have a pointer to one. -/
structure RegisterTally where
  carried : ℕ
  pending : ℕ
  passed : ℕ

/-- What the step of a worker does to the counts, by the place where the worker is. -/
inductive RegisterTally.Moves : RegisterPc → RegisterTally → RegisterTally → Prop
  | finds {t : RegisterTally} (h : 0 < t.carried) :
    Moves .lookup t { t with passed := t.passed + 1 }
  | misses {t : RegisterTally} (h : t.carried = 0) :
    Moves .lookup t { t with pending := t.pending + 1 }
  | inserts {carried pending passed : ℕ} :
    Moves .insert ⟨carried, pending + 1, passed⟩ ⟨carried + 1, pending, passed + 1⟩
  | writes (i : ℕ) (t : RegisterTally) : Moves (.write i) t t
  | rests (t : RegisterTally) : Moves .done t t

/-- The worker has a pointer to a block. -/
def RegisterPc.passed : RegisterPc → Bool
  | .lookup | .insert => false
  | .write _ | .done => true

@[simp] lemma RegisterPc.passed_lookup : RegisterPc.lookup.passed = false := rfl

@[simp] lemma RegisterPc.passed_insert : RegisterPc.insert.passed = false := rfl

@[simp] lemma RegisterPc.passed_write (i : ℕ) : (RegisterPc.write i).passed = true := rfl

@[simp] lemma RegisterPc.passed_done : RegisterPc.done.passed = true := rfl

namespace RegisterRace

variable {hashFunc : List Byte → UInt32} {mapInfo dsIpaddr : List Byte} {c : DatasevrCluster}
  {ins : List DatasevrVolume} {r : RegisterRace} {n : ℕ}

def tally (hashFunc : List Byte → UInt32) (mapInfo dsIpaddr : List Byte) (c : DatasevrCluster)
    (workers : List RegisterWorker) : RegisterTally where
  carried := c.carried (hashFunc mapInfo) (hashFunc dsIpaddr)
  pending := workers.countP fun w => w.pc = .insert
  passed := workers.countP fun w => w.pc.passed

/-- The table of a race satisfies its invariant, and there are requests, all of the same server. -/
structure Running (mapInfo dsIpaddr : List Byte) (r : RegisterRace) (c : DatasevrCluster)
    (ins : List DatasevrVolume) : Prop where
  cluster : r.cluster = some c
  inv : c.Inv ins
  same : ∀ w ∈ r.workers, w.req.mapInfo = mapInfo ∧ w.req.dsIpaddr = dsIpaddr
  ne_nil : r.workers ≠ []

lemma Running.set (h : r.Running mapInfo dsIpaddr c ins) {w : RegisterWorker} (pc : RegisterPc)
    {c' : DatasevrCluster} {ins' : List DatasevrVolume} (hw : r.workers[n]? = some w)
    (hinv : c'.Inv ins') :
    Running mapInfo dsIpaddr ⟨some c', r.workers.set n { w with pc := pc }⟩ c' ins' := by
  refine ⟨rfl, hinv, fun w' hw' => ?_, mt (set_eq_nil_iff _ _).1 h.ne_nil⟩
  rcases mem_or_eq_of_mem_set hw' with hmem | rfl
  · exact h.same w' hmem
  · exact h.same w (mem_of_getElem? hw)

/-- The counts after one worker has got from `pc` to `pc'`. -/
lemma tally_set (c : DatasevrCluster) {c' : DatasevrCluster} {req : DatasevrRegBodyReq}
    {pc pc' : RegisterPc} {workers : List RegisterWorker} (hw : workers[n]? = some ⟨req, pc⟩) (t : RegisterTally)
    (hcarried : c'.carried (hashFunc mapInfo) (hashFunc dsIpaddr) = t.carried)
    (hpending : t.pending + (if pc = .insert then 1 else 0) =
      (tally hashFunc mapInfo dsIpaddr c workers).pending + if pc' = .insert then 1 else 0)
    (hpassed : t.passed + (if pc.passed then 1 else 0) =
      (tally hashFunc mapInfo dsIpaddr c workers).passed + if pc'.passed then 1 else 0) :
    tally hashFunc mapInfo dsIpaddr c' (workers.set n ⟨req, pc'⟩) = t := by
  have hpending' := countP_set_add (⟨req, pc'⟩ : RegisterWorker) (fun w => w.pc = .insert) hw
  have hpassed' := countP_set_add (⟨req, pc'⟩ : RegisterWorker) (fun w => w.pc.passed) hw
  simp only [decide_eq_true_eq] at hpending' hpassed'
  obtain ⟨carried, pending, passed⟩ := t
  simp only [tally] at hpending hpassed ⊢
  congr 1
  · omega
  · omega

/-- **One step of a worker.**  It moves the counts, unless it makes a volume out of the range of the
table. -/
lemma Running.step_cases (h : r.Running mapInfo dsIpaddr c ins) {w : RegisterWorker}
    (hw : r.workers[n]? = some w) :
    (w.pc = .insert ∧ ¬ c.Fits (hashFunc mapInfo) ∧ (r.step hashFunc n).cluster = none) ∨
      (w.pc = .insert → c.Fits (hashFunc mapInfo)) ∧
        ∃ c' ins', (r.step hashFunc n).Running mapInfo dsIpaddr c' ins' ∧
          RegisterTally.Moves w.pc (tally hashFunc mapInfo dsIpaddr c r.workers)
            (tally hashFunc mapInfo dsIpaddr c' (r.step hashFunc n).workers) := by
  obtain ⟨req, pc⟩ := w
  obtain ⟨rfl, rfl⟩ := h.same _ (mem_of_getElem? hw)
  have hstep {c' : DatasevrCluster} {pc' : RegisterPc}
      (hc' : c.registerStep hashFunc ⟨req, pc⟩ = some (c', pc')) :
      r.step hashFunc n = ⟨some c', r.workers.set n ⟨req, pc'⟩⟩ := by
    simp only [step, h.cluster, hw, hc']
  set t := tally hashFunc req.mapInfo req.dsIpaddr c r.workers with ht
  cases pc with
  | lookup =>
    rcases h.inv.registerStep_lookup hashFunc req with ⟨i, hc', hpos⟩ | ⟨hc', hzero⟩
    · refine .inr ⟨nofun, c, ins, hstep hc' ▸ h.set _ hw h.inv, ?_⟩
      rw [hstep hc', tally_set c hw { t with passed := t.passed + 1 } rfl (by simp [ht]) (by simp [ht])]
      exact .finds hpos
    · refine .inr ⟨nofun, c, ins, hstep hc' ▸ h.set _ hw h.inv, ?_⟩
      rw [hstep hc',
        tally_set c hw { t with pending := t.pending + 1 } rfl (by simp [ht]) (by simp [ht])]
      exact .misses hzero
  | insert =>
    by_cases hfits : c.Fits (hashFunc req.mapInfo)
    · obtain ⟨c', ins', i, hc', hinv', hcarried⟩ := h.inv.registerStep_insert hfits
      refine .inr ⟨fun _ => hfits, c', ins', hstep hc' ▸ h.set _ hw hinv', ?_⟩
      -- the worker itself is one of those that are about to insert a block
      have hpos : 0 < t.pending :=
        countP_pos_iff.2 ⟨_, mem_of_getElem? hw, decide_eq_true rfl⟩
      obtain ⟨pending, hpending⟩ := Nat.exists_eq_add_one.2 hpos
      rw [hstep hc', tally_set c hw ⟨t.carried + 1, pending, t.passed + 1⟩ hcarried
        (by simp [← ht, hpending]) (by simp [ht])]
      have hbefore : t = ⟨t.carried, pending + 1, t.passed⟩ := by rw [← hpending]
      rw [hbefore]
      exact .inserts
    · refine .inl ⟨rfl, hfits, ?_⟩
      have hnone : c.registerStep hashFunc ⟨req, .insert⟩ = none := by
        simp only [DatasevrCluster.registerStep]
        rw [h.inv.datasevrblockInsert_eq_none hfits]
        rfl
      simp only [step, h.cluster, hw, hnone]
  | write i =>
    have hcarried := h.inv.carried_write (hashFunc req.mapInfo) (hashFunc req.dsIpaddr) i req
    have hinv' : (c.modifyVolume (hashFunc req.mapInfo) (.modifyBlock i (.register req))).Inv _ :=
      h.inv.modifyVolume fun _ => rfl
    have hc' : c.registerStep hashFunc ⟨req, .write i⟩ =
      some (c.modifyVolume (hashFunc req.mapInfo) (.modifyBlock i (.register req)), .done) := rfl
    refine .inr ⟨nofun, _, _, hstep hc' ▸ h.set _ hw hinv', ?_⟩
    rw [hstep hc', tally_set c hw t hcarried (by simp [ht]) (by simp [ht])]
    exact .writes i t
  | done =>
    refine .inr ⟨nofun, c, ins, hstep rfl ▸ h.set _ hw h.inv, ?_⟩
    rw [hstep rfl, tally_set c hw t rfl (by simp [ht]) (by simp [ht])]
    exact .rests t

variable (hashFunc mapInfo dsIpaddr) in
/-- There is at most one block, or one worker about to insert it, and there is a block if a worker has
a pointer to it. -/
def Good (r : RegisterRace) : Prop :=
  ∃ c ins, r.Running mapInfo dsIpaddr c ins ∧
    (tally hashFunc mapInfo dsIpaddr c r.workers).carried +
      (tally hashFunc mapInfo dsIpaddr c r.workers).pending ≤ 1 ∧
    (0 < (tally hashFunc mapInfo dsIpaddr c r.workers).passed →
      0 < (tally hashFunc mapInfo dsIpaddr c r.workers).carried)

variable (hashFunc mapInfo dsIpaddr) in
/-- The table has been left, or there will be two blocks. -/
def Bad (r : RegisterRace) : Prop :=
  r.cluster = none ∨ ∃ c ins, r.Running mapInfo dsIpaddr c ins ∧
    2 ≤ (tally hashFunc mapInfo dsIpaddr c r.workers).carried +
      (tally hashFunc mapInfo dsIpaddr c r.workers).pending

lemma step_of_none (hw : r.workers[n]? = none) : r.step hashFunc n = r := by
  rw [step, hw]
  cases r.cluster <;> rfl

lemma pending_eq_zero_iff : (tally hashFunc mapInfo dsIpaddr c r.workers).pending = 0 ↔
    ∀ w ∈ r.workers, w.pc ≠ .insert := by
  simp [tally, countP_eq_zero]

lemma Good.not_bad (h : r.Good hashFunc mapInfo dsIpaddr) : ¬ r.Bad hashFunc mapInfo dsIpaddr := by
  obtain ⟨c, ins, hrun, hle, -⟩ := h
  rintro (hnone | ⟨c', ins', hrun', hge⟩)
  · exact absurd (hrun.cluster.symm.trans hnone) (by simp)
  · obtain rfl : c = c' := some.inj (hrun.cluster.symm.trans hrun'.cluster)
    omega

lemma Good.step (h : r.Good hashFunc mapInfo dsIpaddr) (halone : r.Alone hashFunc mapInfo n) :
    (RegisterRace.step hashFunc r n).Good hashFunc mapInfo dsIpaddr := by
  cases hw : r.workers[n]? with
  | none =>
    rw [step_of_none hw]
    exact h
  | some w =>
    obtain ⟨c, ins, hrun, hle, hpassed⟩ := h
    obtain ⟨hlookup, hinsert⟩ := halone w hw
    rcases hrun.step_cases hw with ⟨hpc, hfits, -⟩ | ⟨-, c', ins', hrun', hmoves⟩
    · exact absurd (hinsert hpc c hrun.cluster) hfits
    · refine ⟨c', ins', hrun', ?_⟩
      have hzero (hpc : w.pc = .lookup) :
          (tally hashFunc mapInfo dsIpaddr c r.workers).pending = 0 :=
        pending_eq_zero_iff.2 (hlookup hpc)
      generalize tally hashFunc mapInfo dsIpaddr c r.workers = t at hmoves hle hpassed hzero
      generalize tally hashFunc mapInfo dsIpaddr c' _ = t' at hmoves
      generalize w.pc = pc at hmoves hzero
      cases hmoves with
      | finds hpos => exact ⟨hle, fun _ => hpos⟩
      | misses hcarried =>
        have hpending := hzero rfl
        exact ⟨by dsimp only; omega, fun hp => absurd (hpassed hp) (by omega)⟩
      | inserts =>
        dsimp only at hle ⊢
        exact ⟨by omega, fun _ => Nat.succ_pos _⟩
      | writes | rests => exact ⟨hle, hpassed⟩

/-- A step against the condition leads to a second block, or out of the table. -/
lemma Good.bad_step (h : r.Good hashFunc mapInfo dsIpaddr) (halone : ¬ r.Alone hashFunc mapInfo n) :
    (RegisterRace.step hashFunc r n).Bad hashFunc mapInfo dsIpaddr := by
  cases hw : r.workers[n]? with
  | none => exact absurd (fun w hw' => absurd (hw.symm.trans hw') (by simp)) halone
  | some w =>
    obtain ⟨c, ins, hrun, hle, -⟩ := h
    rcases hrun.step_cases hw with ⟨-, -, hnone⟩ | ⟨hfits, c', ins', hrun', hmoves⟩
    · exact .inl hnone
    · -- the worker has looked the block up while another was about to insert it
      have hpending : w.pc = .lookup ∧
          0 < (tally hashFunc mapInfo dsIpaddr c r.workers).pending := by
        by_contra hnot
        refine halone fun w' hw' => ?_
        obtain rfl : w = w' := some.inj (hw.symm.trans hw')
        refine ⟨fun hpc => ?_, fun hpc c' hc' => ?_⟩
        · have hzero : (tally hashFunc mapInfo dsIpaddr c r.workers).pending = 0 :=
            Nat.eq_zero_of_not_pos fun hpos => hnot ⟨hpc, hpos⟩
          exact pending_eq_zero_iff.1 hzero
        · obtain rfl : c = c' := some.inj (hrun.cluster.symm.trans hc')
          exact hfits hpc
      obtain ⟨hpc, hpending⟩ := hpending
      refine .inr ⟨c', ins', hrun', ?_⟩
      rw [hpc] at hmoves
      generalize tally hashFunc mapInfo dsIpaddr c r.workers = t at hmoves hle hpending
      generalize tally hashFunc mapInfo dsIpaddr c' _ = t' at hmoves
      cases hmoves with
      | finds hpos => omega
      | misses hcarried =>
        dsimp only
        omega

lemma Bad.step (h : r.Bad hashFunc mapInfo dsIpaddr) (n : ℕ) :
    (RegisterRace.step hashFunc r n).Bad hashFunc mapInfo dsIpaddr := by
  cases hw : r.workers[n]? with
  | none =>
    rw [step_of_none hw]
    exact h
  | some w =>
    rcases h with hnone | ⟨c, ins, hrun, hge⟩
    · refine .inl ?_
      rw [RegisterRace.step, hnone]
      exact hnone
    · rcases hrun.step_cases hw with ⟨-, -, hnone⟩ | ⟨-, c', ins', hrun', hmoves⟩
      · exact .inl hnone
      · refine .inr ⟨c', ins', hrun', ?_⟩
        generalize tally hashFunc mapInfo dsIpaddr c r.workers = t at hmoves hge
        generalize tally hashFunc mapInfo dsIpaddr c' _ = t' at hmoves
        generalize w.pc = pc at hmoves
        cases hmoves with
        | finds | writes | rests => exact hge
        | misses => exact hge.trans (Nat.le_succ _)
        | inserts =>
          dsimp only at hge ⊢
          omega

lemma good_start {reqs : List DatasevrRegBodyReq} (h : c.Inv ins)
    (hone : c.carried (hashFunc mapInfo) (hashFunc dsIpaddr) ≤ 1) (hreqs : reqs ≠ []) :
    (start mapInfo dsIpaddr c reqs).Good hashFunc mapInfo dsIpaddr := by
  have hpending : (tally hashFunc mapInfo dsIpaddr c
      (start mapInfo dsIpaddr c reqs).workers).pending = 0 := by
    rw [pending_eq_zero_iff]
    simp [start]
  have hpassed : (tally hashFunc mapInfo dsIpaddr c
      (start mapInfo dsIpaddr c reqs).workers).passed = 0 := by
    simp [tally, start, countP_eq_zero]
  refine ⟨c, ins, ⟨rfl, h, ?_, ?_⟩, ?_, ?_⟩
  · simp [start]
  · simpa [start] using hreqs
  · rw [hpending]
    exact hone
  · rw [hpassed]
    exact fun hpos => absurd hpos (lt_irrefl 0)

lemma Running.of_finished (h : r.Running mapInfo dsIpaddr c ins)
    (hashFunc : List Byte → UInt32) (hdone : r.Finished) :
    (tally hashFunc mapInfo dsIpaddr c r.workers).pending = 0 ∧
      0 < (tally hashFunc mapInfo dsIpaddr c r.workers).passed := by
  constructor
  · rw [pending_eq_zero_iff]
    intro w hw hpc
    exact absurd ((hdone w hw).symm.trans hpc) (by simp)
  · obtain ⟨w, hw⟩ := exists_mem_of_ne_nil _ h.ne_nil
    refine countP_pos_iff.2 ⟨w, hw, ?_⟩
    rw [hdone w hw, RegisterPc.passed_done]

/-- **One block for each server.**  When all requests of a server have been handled, its volume has
one block for it exactly if each lookup came when no worker was about to insert the block, and the
volume was made, if at all, in the range of the table.  The table is any that satisfies the
invariant. -/
theorem one_block_iff {c : DatasevrCluster} {ins : List DatasevrVolume} (hinv : c.Inv ins)
    (hashFunc : List Byte → UInt32) (mapInfo dsIpaddr : List Byte)
    (hone : c.carried (hashFunc mapInfo) (hashFunc dsIpaddr) ≤ 1)
    {reqs : List DatasevrRegBodyReq} (hreqs : reqs ≠ []) (ns : List ℕ)
    (hdone : (run (step hashFunc) (start mapInfo dsIpaddr c reqs) ns).Finished) :
    Along (step hashFunc) (fun r n _ => r.Alone hashFunc mapInfo n)
        (start mapInfo dsIpaddr c reqs) ns ↔
      (run (step hashFunc) (start mapInfo dsIpaddr c reqs) ns).OneBlock hashFunc mapInfo
        dsIpaddr := by
  have hgood : (start mapInfo dsIpaddr c reqs).Good hashFunc mapInfo dsIpaddr :=
    good_start hinv hone hreqs
  constructor
  · intro halone
    obtain ⟨c', ins', hrun, hle, hpassed⟩ :=
      halone.inv hgood fun r n h halone => h.step halone
    obtain ⟨hpending, hpos⟩ := hrun.of_finished hashFunc hdone
    rw [OneBlock, hrun.cluster]
    exact le_antisymm (Nat.le_of_add_right_le hle) (hpassed hpos)
  · intro hblock
    refine (Along.iff_not_absorbed hgood (fun _ h => h.not_bad) (fun r n h => h.step)
      (fun r n h => h.bad_step) fun r n h => h.step n).2 ?_
    rintro (hnone | ⟨c', ins', hrun, hge⟩)
    · rw [OneBlock, hnone] at hblock
      exact hblock
    · obtain ⟨hpending, -⟩ := hrun.of_finished hashFunc hdone
      rw [OneBlock, hrun.cluster] at hblock
      rw [hpending] at hge
      exact absurd hge (Nat.not_le.2 (Nat.lt_succ_of_le hblock.le))

/-- A registration of the server `1` of the volume `1`. -/
def registration : DatasevrRegBodyReq := ⟨[1], [1], 80, 1, 30, 0, 0⟩

/-- Two workers, one after the other, on an empty table. -/
theorem oneAfterTheOther_oneBlock :
    (run (step fun _ => 0) (start [1] [1] .clusterInit [registration, registration])
      [0, 0, 0, 1, 1]).OneBlock (fun _ => 0) [1] [1] :=
  (one_block_iff DatasevrCluster.inv_clusterInit (fun _ => 0) [1] [1] (by decide +kernel)
    (cons_ne_nil _ _) [0, 0, 0, 1, 1] (by decide +kernel)).1 (by decide +kernel)

/-- Both workers look the block up, and then both insert it. -/
theorem lookupTwice_not_oneBlock :
    (run (step fun _ => 0) (start [1] [1] .clusterInit [registration, registration])
        [0, 1, 0, 1, 0, 1]).Finished ∧
      ¬ (run (step fun _ => 0) (start [1] [1] .clusterInit [registration, registration])
        [0, 1, 0, 1, 0, 1]).OneBlock (fun _ => 0) [1] [1] := by
  decide +kernel

end RegisterRace

end Lfs.Tracker
