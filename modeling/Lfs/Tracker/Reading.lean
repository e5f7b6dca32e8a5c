/-
The server that a reader is sent to (`cluster_readdatasevrblock_get` in `ts_cluster_datasevr.c`).

The scan over the blocks of the volume begins with the first one at every call, and passes over the
master and the block that was returned last.  If it stops nowhere the master is returned, whether it
has sent a heartbeat or not.  Because the scan always begins at the front, it never comes beyond the
second replica.
-/
import Lfs.Tracker.Handling
import Mathlib.Data.List.Find

namespace Lfs.Tracker

open Lfs.Lib List Option ClusterState

/-! ### Servers that are alive -/

/-- The last heartbeat of the block is at most `heart_beat_interval` old. -/
def DatasevrBlock.Alive (heartBeatInterval now : ℤ) (b : DatasevrBlock) : Prop :=
  now - b.lastHeartbeatTime ≤ heartBeatInterval

instance (heartBeatInterval now : ℤ) : DecidablePred (DatasevrBlock.Alive heartBeatInterval now) :=
  fun _ => inferInstanceAs (Decidable (_ ≤ _))

namespace DatasevrVolume

variable {heartBeatInterval now sequence : ℤ} {dv : DatasevrVolume}

/-- The block that `cluster_readdatasevrblock_get` returns at the time `now`. -/
def readBlock (heartBeatInterval now sequence : ℤ) (dv : DatasevrVolume) : Option DatasevrBlock :=
  (dv.readdatasevrblockGet heartBeatInterval (fun _ => now) sequence).1.bind fun i => dv.blocks[i]?

/-- The scan stops at a block. -/
def SomeReadable (heartBeatInterval now sequence : ℤ) (dv : DatasevrVolume) : Prop :=
  ∃ i < dv.blocks.length, dv.readable heartBeatInterval (fun _ => now) sequence i = true

instance : Decidable (dv.SomeReadable heartBeatInterval now sequence) :=
  inferInstanceAs (Decidable (∃ i < _, _))

/-- The block that is returned is alive exactly if the scan stops at one, or the master is alive. -/
lemma readBlock_alive_iff_of_master (hmaster : dv.masterBlockIndex = 0) :
    (∀ b ∈ dv.readBlock heartBeatInterval now sequence, b.Alive heartBeatInterval now) ↔
      dv.SomeReadable heartBeatInterval now sequence ∨
        ∀ b ∈ dv.blocks.head?, b.Alive heartBeatInterval now := by
  obtain ⟨i, hi, hread, hget⟩ | ⟨hnone, hget⟩ :=
    dv.readdatasevrblockGet_cases heartBeatInterval (fun _ => now) sequence
  · obtain ⟨-, -, b, hb, halive, -⟩ := readable_iff.1 hread
    have hblock : dv.readBlock heartBeatInterval now sequence = some b := by
      rw [readBlock, hget]
      exact hb
    refine iff_of_true ?_ (.inl ⟨i, hi, hread⟩)
    rw [hblock]
    rintro _ ⟨⟩
    exact halive
  · have hblock : dv.readBlock heartBeatInterval now sequence = dv.blocks.head? := by
      rw [readBlock, hget, hmaster, head?_eq_getElem?]
      rfl
    have hsome : ¬ dv.SomeReadable heartBeatInterval now sequence := by
      rintro ⟨i, hi, hread⟩
      exact hnone i hi hread
    rw [hblock, or_iff_right hsome]

end DatasevrVolume

/-- **Dead servers.**  In every state that is reached from the start of the tracker, or from what a
snapshot has left, the block that is returned for a volume has sent a heartbeat in the last
`heart_beat_interval` seconds exactly if the volume is not there, or a block other than the master
and the one of the last read is alive and has synchronised up to `sequence`, or the master is
alive. -/
theorem readBlock_alive_iff {hashFunc : List Byte → UInt32} {heartBeatInterval : ℤ}
    {s₀ s : ClusterState} (h₀ : s₀ = .start ∨ ∃ bs, s₀ = .ofSnapshot bs) {ops : List TrackerOp}
    (hrun : run (serve hashFunc heartBeatInterval) (some s₀) ops = some s)
    (vid : UInt32) (sequence now : ℤ) :
    (∀ b ∈ (s.volume vid).readBlock heartBeatInterval now sequence, b.Alive heartBeatInterval now) ↔
      (s.volume vid).blocks = [] ∨ (s.volume vid).SomeReadable heartBeatInterval now sequence ∨
        ∃ b ∈ (s.volume vid).blocks.head?, b.Alive heartBeatInterval now := by
  have hmastered₀ : s₀.Mastered := by
    obtain rfl | ⟨bs, rfl⟩ := h₀
    · exact mastered_start
    · exact mastered_ofSnapshot bs
  have hmaster : (s.volume vid).masterBlockIndex = _ := hmastered₀.run hrun vid
  by_cases hnil : (s.volume vid).blocks = []
  · -- there is no such volume
    refine iff_of_true ?_ (.inl hnil)
    rintro b hb
    obtain ⟨i, -, hi⟩ := bind_eq_some_iff.1 hb
    rw [hnil] at hi
    exact absurd hi (by simp)
  · rw [if_neg hnil] at hmaster
    rw [DatasevrVolume.readBlock_alive_iff_of_master hmaster, or_iff_right hnil]
    obtain ⟨b, hb⟩ := isSome_iff_exists.1 (isSome_head?.2 hnil)
    simp [hb]

/-- The servers `ips` of the volume `A` register, and report at the time 5. -/
def reportedAtFive (ips : List Byte) : List TrackerOp :=
  ips.map (fun ip => ⟨5, 0, .register, requestOf ip⟩) ++
    ips.map fun ip => ⟨5, 0, .syncreport, requestOf ip⟩

/-- At the time 20 the reports of the servers are recent enough. -/
theorem readBlock_alive_recent :
    ∃ s, run (serve letterHash 30) (some .start) (reportedAtFive [49, 50]) = some s ∧
      ∀ b ∈ (s.volume 65).readBlock 30 20 0, b.Alive 30 20 := by
  have hrun : ∃ s, run (serve letterHash 30) (some .start) (reportedAtFive [49, 50]) =
      some s ∧ (s.volume 65).SomeReadable 30 20 0 := ⟨_, rfl, by decide⟩
  obtain ⟨s, hs, hread⟩ := hrun
  exact ⟨s, hs, (readBlock_alive_iff (.inl rfl) hs 65 0 20).2 (.inr (.inl hread))⟩

/-- At the time 100 no server has been heard of for 95 seconds, and the master is returned. -/
theorem readBlock_dead :
    ∃ b, ((run (serve letterHash 30) (some .start) (reportedAtFive [49, 50])).bind
      fun s => (s.volume 65).readBlock 30 100 0) = some b ∧ ¬ b.Alive 30 100 :=
  ⟨_, rfl, by decide⟩

/-! ### The rotation over the replicas -/

/-- The choices of `n` calls among the replicas `rs`, when all of them can be read from: the first one
other than the last choice, or the master if there is none. -/
def rotation (rs : List ℕ) (master : Option ℕ) : ℤ → ℕ → List (Option ℕ)
  | _, 0 => []
  | last, n + 1 =>
    match rs.find? fun i : ℕ => (i : ℤ) ≠ last with
    | some i => some i :: rotation rs master i n
    | none => master :: rotation rs master last n

section Rotation

variable {rs : List ℕ} {master : Option ℕ} {last : ℤ} {a b : ℕ}

lemma rotation_one_self (n : ℕ) : rotation [a] master a n = replicate n master := by
  induction n with
  | zero => rfl
  | succ n ih =>
    have hfind : [a].find? (fun i : ℕ => (i : ℤ) ≠ a) = none := by simp
    rw [rotation, hfind, ih]
    rfl

lemma mem_rotation_one_iff (hmaster : master ≠ some a) (n : ℕ) :
    some a ∈ rotation [a] master last (n + 1) ↔ (a : ℤ) ≠ last := by
  by_cases hlast : (a : ℤ) = last
  · subst hlast
    rw [rotation_one_self]
    simp [mem_replicate, Ne.symm hmaster]
  · have hfind : [a].find? (fun i : ℕ => (i : ℤ) ≠ last) = some a := by simp [hlast]
    rw [rotation, hfind]
    simp [hlast]

lemma find?_ne_last (hab : a ≠ b) :
    (a :: b :: rs).find? (fun i : ℕ => (i : ℤ) ≠ last) = some (if (a : ℤ) = last then b else a) := by
  by_cases hlast : (a : ℤ) = last
  · subst hlast
    rw [if_pos rfl, find?_cons_of_neg (by simp), find?_cons_of_pos]
    simpa using Ne.symm hab
  · rw [if_neg hlast, find?_cons_of_pos (by simpa using hlast)]

lemma rotation_two_succ (hab : a ≠ b) (n : ℕ) : rotation (a :: b :: rs) master last (n + 1) =
      some (if (a : ℤ) = last then b else a) ::
        rotation (a :: b :: rs) master ((if (a : ℤ) = last then b else a : ℕ) : ℤ) n := by
  rw [rotation, find?_ne_last hab]

lemma mem_rotation_two (hab : a ≠ b) (n : ℕ) :
    some a ∈ rotation (a :: b :: rs) master last (n + 2) ∧
      some b ∈ rotation (a :: b :: rs) master last (n + 2) := by
  have hba : ¬ (a : ℤ) = (b : ℤ) := by simpa using hab
  rw [rotation_two_succ hab, rotation_two_succ hab]
  by_cases hlast : (a : ℤ) = last
  · subst hlast
    simp [hba]
  · simp [hlast]

lemma eq_of_mem_rotation (hab : a ≠ b) {n : ℕ} {r : Option ℕ}
    (h : r ∈ rotation (a :: b :: rs) master last n) : r = some a ∨ r = some b := by
  induction n generalizing last with
  | zero => simp [rotation] at h
  | succ n ih =>
    rw [rotation_two_succ hab, mem_cons] at h
    rcases h with rfl | h
    · split_ifs
      · exact .inr rfl
      · exact .inl rfl
    · exact ih h

/-- **The rotation** comes to every replica in at least two calls exactly if there are two of them, or
there is one that was not the last choice. -/
lemma forall_mem_rotation_iff (hnodup : rs.Nodup) (hmaster : ∀ i ∈ rs, master ≠ some i)
    (hone : 1 ≤ rs.length) (n : ℕ) :
    (∀ i ∈ rs, some i ∈ rotation rs master last (n + 2)) ↔
      rs.length = 2 ∨ rs.length = 1 ∧ ∀ i ∈ rs, (i : ℤ) ≠ last := by
  rcases rs with _ | ⟨a, _ | ⟨b, _ | ⟨c, rs⟩⟩⟩
  · exact absurd hone (by simp)
  · have hmem : some a ∈ rotation [a] master last (n + 2) ↔ (a : ℤ) ≠ last :=
      mem_rotation_one_iff (hmaster a (by simp)) (n + 1)
    simpa using hmem
  · have hab : a ≠ b := by simpa using hnodup
    have hmem : some a ∈ rotation [a, b] master last (n + 2) ∧
        some b ∈ rotation [a, b] master last (n + 2) := mem_rotation_two hab n
    simpa using hmem
  · -- the third one is not returned
    have hab : a ≠ b := by
      rintro rfl
      simp at hnodup
    refine iff_of_false (fun h => ?_) (by simp)
    have hc := eq_of_mem_rotation hab (h c (by simp))
    simp only [Option.some.injEq] at hc
    rcases hc with rfl | rfl
    · simp at hnodup
    · simp at hnodup

end Rotation

/-! ### Replicas that are read from -/

/-- A call of `cluster_readdatasevrblock_get`, with the blocks of the volume as they are at that
time. -/
structure ReadCall where
  blocks : List DatasevrBlock
  sequence : ℤ
  now : ℕ → ℤ

namespace DatasevrVolume

variable {heartBeatInterval : ℤ} {dv : DatasevrVolume} {calls : List ReadCall}

/-- The indices of the blocks other than the master. -/
def replicas (dv : DatasevrVolume) : List ℕ :=
  (range dv.blocks.length).filter fun i : ℕ => (i : ℤ) ≠ dv.masterBlockIndex

def reads (heartBeatInterval : ℤ) : DatasevrVolume → List ReadCall → List (Option ℕ)
  | _, [] => []
  | dv, call :: calls =>
    let r := { dv with blocks := call.blocks }.readdatasevrblockGet heartBeatInterval call.now
      call.sequence
    r.1 :: reads heartBeatInterval r.2 calls

/-- At the time of the call the volume has the same number of blocks, and all but the master are alive
and have synchronised up to `sequence`. -/
structure AllReadable (heartBeatInterval : ℤ) (dv : DatasevrVolume) (call : ReadCall) : Prop where
  length : call.blocks.length = dv.blocks.length
  readable : ∀ i ∈ dv.replicas, ∃ b, call.blocks[i]? = some b ∧
    b.Alive heartBeatInterval (call.now i) ∧ call.sequence ≤ b.lastSyncSequence

lemma mem_replicas {i : ℕ} :
    i ∈ dv.replicas ↔ i < dv.blocks.length ∧ (i : ℤ) ≠ dv.masterBlockIndex := by
  simp [replicas]

lemma nodup_replicas (dv : DatasevrVolume) : dv.replicas.Nodup := nodup_range.filter _

/-- What is returned if no replica can be. -/
def masterResult (dv : DatasevrVolume) : Option ℕ :=
  if 0 ≤ dv.masterBlockIndex then some dv.masterBlockIndex.toNat else none

lemma masterResult_ne {i : ℕ} (hi : i ∈ dv.replicas) : dv.masterResult ≠ some i := by
  intro hmaster
  rw [masterResult] at hmaster
  split_ifs at hmaster with hle
  have heq := some.inj hmaster
  exact (mem_replicas.1 hi).2 (by omega)

lemma AllReadable.find?_eq {call : ReadCall} (h : dv.AllReadable heartBeatInterval call) :
    (range call.blocks.length).find?
        ({ dv with blocks := call.blocks }.readable heartBeatInterval call.now call.sequence) =
      dv.replicas.find? fun i : ℕ => (i : ℤ) ≠ dv.lastReadBlockIndex := by
  rw [replicas, find?_filter, h.length]
  refine find?_congr fun i hi => ?_
  rw [Bool.eq_iff_iff, readable_iff]
  simp only [decide_eq_true_eq]
  refine and_congr_right fun hmaster => and_iff_left ?_
  exact h.readable i (mem_replicas.2 ⟨mem_range.1 hi, hmaster⟩)

/-- **A run of calls** is a rotation over the replicas. -/
lemma reads_eq_rotation (hcalls : ∀ call ∈ calls, dv.AllReadable heartBeatInterval call) :
    dv.reads heartBeatInterval calls =
      rotation dv.replicas dv.masterResult dv.lastReadBlockIndex calls.length := by
  induction calls generalizing dv with
  | nil => rfl
  | cons call calls ih =>
    have hcall := hcalls call mem_cons_self
    -- the volume keeps the number of its blocks and the master
    have hrest (dv' : DatasevrVolume) (hlength : dv'.blocks.length = dv.blocks.length)
        (hmaster : dv'.masterBlockIndex = dv.masterBlockIndex) :
        dv'.reads heartBeatInterval calls =
          rotation dv.replicas dv.masterResult dv'.lastReadBlockIndex calls.length := by
      have hreplicas : dv'.replicas = dv.replicas := by rw [replicas, replicas, hlength, hmaster]
      have hresult : dv'.masterResult = dv.masterResult := by rw [masterResult, masterResult, hmaster]
      rw [ih fun call' hcall' => ?_, hreplicas, hresult]
      have hold := hcalls call' (mem_cons_of_mem call hcall')
      exact ⟨hold.length.trans hlength.symm, hreplicas ▸ hold.readable⟩
    rw [reads, length_cons, rotation, readdatasevrblockGet, hcall.find?_eq]
    cases dv.replicas.find? fun i : ℕ => decide ((i : ℤ) ≠ dv.lastReadBlockIndex) with
    | some i => exact congrArg (some i :: ·) (hrest _ hcall.length rfl)
    | none => exact congrArg (dv.masterResult :: ·) (hrest _ hcall.length rfl)

end DatasevrVolume

/-- **Replicas that are not read from.**  In a volume whose `k ≥ 1` blocks other than the master stay
alive and synchronised up to what is asked for, each of them is returned at least once in `2 (k + 1)`
consecutive calls exactly if `k` is 2, or `k` is 1 and the one replica was not the last one that was
returned. -/
theorem reads_every_replica_iff {heartBeatInterval : ℤ} {dv : DatasevrVolume} {calls : List ReadCall}
    (hone : 1 ≤ dv.replicas.length) (hcalls : ∀ call ∈ calls, dv.AllReadable heartBeatInterval call)
    (hlength : calls.length = 2 * (dv.replicas.length + 1)) :
    (∀ i ∈ dv.replicas, some i ∈ dv.reads heartBeatInterval calls) ↔ dv.replicas.length = 2 ∨
        dv.replicas.length = 1 ∧ ∀ i ∈ dv.replicas, (i : ℤ) ≠ dv.lastReadBlockIndex := by
  rw [DatasevrVolume.reads_eq_rotation hcalls, hlength, mul_add]
  exact forall_mem_rotation_iff dv.nodup_replicas (fun _ => DatasevrVolume.masterResult_ne) hone _

/-- A volume of `n` servers that have reported at the time 5, the first of which is the master. -/
def reportedVolume (n : ℕ) : DatasevrVolume where
  volumeId := 65
  blocks := replicate n { blockNew with lastHeartbeatTime := 5 }
  masterBlockIndex := 0
  lastReadBlockIndex := 0

/-- A call at the time 6. -/
def callAtSix (n : ℕ) : ReadCall := ⟨(reportedVolume n).blocks, 0, fun _ => 6⟩

/-- Two replicas. -/
theorem reads_two_replicas :
    (reportedVolume 3).replicas = [1, 2] ∧ ∀ i ∈ (reportedVolume 3).replicas, some i ∈
      (reportedVolume 3).reads 30 (replicate 6 (callAtSix 3)) := by
  refine ⟨by decide, ?_⟩
  refine (reads_every_replica_iff (by decide) (fun call hcall => ?_) (by decide)).2 (.inl (by decide))
  obtain rfl := eq_of_mem_replicate hcall
  exact ⟨rfl, by decide⟩

/-- Three replicas, in a state that the tracker reaches when four servers register and report.  The
third one is not returned in eight calls. -/
theorem thirdReplica_not_read : ∃ dv, ((run (serve letterHash 30) (some .start)
        (reportedAtFive [49, 50, 51, 52])).map fun s => s.volume 65) = some dv ∧
      dv.replicas = [1, 2, 3] ∧
      dv.AllReadable 30 ⟨dv.blocks, 0, fun _ => 6⟩ ∧
      dv.reads 30 (replicate 8 ⟨dv.blocks, 0, fun _ => 6⟩) =
        [some 1, some 2, some 1, some 2, some 1, some 2, some 1, some 2] :=
  ⟨_, rfl, by decide, ⟨rfl, by decide⟩, by decide⟩

end Lfs.Tracker
