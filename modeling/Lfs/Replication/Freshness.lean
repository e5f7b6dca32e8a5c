/-
Reading from a slave: uploads, asynchronous copies, reports to the tracker and reads of one
volume, in any order.

A dataserver has one mark, `last_sync_sequence`, for the copies it has received from all of
its peers, and the tracker sends a reader of a file with create timestamp `t` to a server
that has reported a mark of at least `t`.  Such a server need not store the file: a mark that
was raised by one server says nothing about the files of another, and several files have the
same timestamp.
-/
import Lfs.Lib.Mark
import Lfs.Lib.Run
import Lfs.Tracker.Service

namespace Lfs.Replication

open Lfs.Lib Lfs.Tracker List Function

structure File where
  fId : List Byte
  fCreateTimestamp : ℤ
deriving DecidableEq

structure DataServer where
  /-- The files of its uploads, in the order of its binlog. -/
  binlog : List File
  stored : List File
  /-- `ctxs.last_sync_sequence`. -/
  lastSyncSequence : ℤ

namespace DataServer

def fresh : DataServer := ⟨[], [], 0⟩

/-- The end of an upload in `file_upload_done_callback`. -/
def fileUploadDone (f : File) (d : DataServer) : DataServer :=
  { d with binlog := d.binlog ++ [f], stored := d.stored ++ [f] }

/-- The end of a copy in `asyncfile_done_callback`. -/
def asyncfileDone (f : File) (d : DataServer) : DataServer :=
  { d with
    stored := d.stored ++ [f]
    lastSyncSequence :=
      if d.lastSyncSequence < f.fCreateTimestamp then f.fCreateTimestamp else d.lastSyncSequence }

lemma lastSyncSequence_asyncfileDone (d : DataServer) (f : File) :
    (d.asyncfileDone f).lastSyncSequence = max d.lastSyncSequence f.fCreateTimestamp := by
  rw [max_def_lt]
  rfl

end DataServer

/-- The servers of a volume and the tracker's view of it.  The server `i` is the block `i`. -/
structure Volume where
  dv : DatasevrVolume
  servers : ℕ → DataServer
  /-- How many records of the binlog of a server have been copied to a peer. -/
  copied : ℕ → ℕ → ℕ

inductive VolumeOp where
  | upload (o : ℕ) (f : File)
  /-- The next record of the binlog of `o` is copied to `p`. -/
  | copy (o p : ℕ)
  | heartbeat (p : ℕ) (time : ℤ)
  | syncreport (p : ℕ) (time : ℤ)
  | read (sequence : ℤ) (now : ℕ → ℤ)

namespace Volume

/-- A volume of `n` servers that have no files and have not reported anything. -/
def start (n : ℕ) (master : ℤ) : Volume where
  dv := { volumeNew with
    blocks := List.replicate n blockNew
    masterBlockIndex := master }
  servers := fun _ => .fresh
  copied := fun _ _ => 0

def blockCount (v : Volume) : ℕ := v.dv.blocks.length

/-- The record that is copied next from the server `o` to its peer `p`. -/
def nextCopy (v : Volume) (o p : ℕ) : Option File :=
  if o < v.blockCount ∧ p < v.blockCount ∧ o ≠ p then (v.servers o).binlog[v.copied o p]? else none

def step (heartBeatInterval : ℤ) (v : Volume) : VolumeOp → Volume
  | .upload o f =>
    if o < v.blockCount then
      { v with servers := update v.servers o ((v.servers o).fileUploadDone f) }
    else v
  | .copy o p =>
    match v.nextCopy o p with
    | none => v
    | some f => { v with
        servers := update v.servers p ((v.servers p).asyncfileDone f)
        copied := fun o' p' => if o' = o ∧ p' = p then v.copied o p + 1 else v.copied o' p' }
  | .heartbeat p time => { v with dv := v.dv.modifyBlock p (·.heartbeat time) }
  | .syncreport p time => { v with
      dv := v.dv.modifyBlock p (·.syncreport time (v.servers p).lastSyncSequence) }
  | .read sequence now => { v with
      dv := (v.dv.readdatasevrblockGet heartBeatInterval now sequence).2 }

/-- The files of the volume whose upload was acknowledged. -/
def acked (v : Volume) : Set File := {f | ∃ o < v.blockCount, f ∈ (v.servers o).binlog}

/-- A server that a read returns, other than the master, stores every file of the volume
that has the timestamp. -/
def FreshRead (heartBeatInterval : ℤ) (v : Volume) : VolumeOp → Prop
  | .read sequence now =>
    ∀ i ∈ (v.dv.readdatasevrblockGet heartBeatInterval now sequence).1,
      (i : ℤ) ≠ v.dv.masterBlockIndex → ∀ o < v.blockCount, ∀ f ∈ (v.servers o).binlog,
        f.fCreateTimestamp = sequence → f ∈ (v.servers i).stored
  | _ => True

/-- The server `p` stores every file of the volume, other than `g`, whose timestamp is at most
that of `g`. -/
def StoresUpTo (v : Volume) (p : ℕ) (g : File) : Prop :=
  ∀ q < v.blockCount, ∀ f ∈ (v.servers q).binlog,
    f.fCreateTimestamp ≤ g.fCreateTimestamp → f = g ∨ f ∈ (v.servers p).stored

/-- The condition on a step.  An upload has a timestamp above the marks of the other servers,
and a copy comes after those of all files with timestamps up to its own; the master's mark
does not matter. -/
def InOrder (v : Volume) : VolumeOp → Prop
  | .upload o f => ∀ p < v.blockCount, p ≠ o → (p : ℤ) ≠ v.dv.masterBlockIndex →
      (v.servers p).lastSyncSequence < f.fCreateTimestamp
  | .copy o p => (p : ℤ) ≠ v.dv.masterBlockIndex → ∀ g ∈ v.nextCopy o p, v.StoresUpTo p g
  | _ => True

instance (heartBeatInterval : ℤ) (v : Volume) :
    (op : VolumeOp) → Decidable (v.FreshRead heartBeatInterval op)
  | .read _ _ => inferInstanceAs (Decidable (∀ i ∈ _, _ → ∀ o < _, ∀ f ∈ _, _ → _))
  | .upload _ _ | .copy _ _ | .heartbeat _ _ | .syncreport _ _ => isTrue trivial

instance (v : Volume) (p : ℕ) (g : File) : Decidable (v.StoresUpTo p g) :=
  inferInstanceAs (Decidable (∀ q < _, ∀ f ∈ _, _ → _))

instance (v : Volume) : (op : VolumeOp) → Decidable (v.InOrder op)
  | .upload _ _ => inferInstanceAs (Decidable (∀ p < _, _ → _ → _))
  | .copy _ _ => inferInstanceAs (Decidable (_ → ∀ g ∈ _, _))
  | .heartbeat _ _ | .syncreport _ _ | .read _ _ => isTrue trivial

/-! ### The invariant -/

/-- The invariant: every server stores its own uploads, the tracker has no mark of a server
that is above the server's own, and every server but the master stores all files of the
volume up to its mark. -/
structure Inv (v : Volume) : Prop where
  own : ∀ p, ∀ f ∈ (v.servers p).binlog, f ∈ (v.servers p).stored
  reported : ∀ p, ∀ b ∈ v.dv.blocks[p]?, b.lastSyncSequence ≤ (v.servers p).lastSyncSequence
  upTo : ∀ p < v.blockCount, (p : ℤ) ≠ v.dv.masterBlockIndex → UpTo File.fCreateTimestamp v.acked
    {f | f ∈ (v.servers p).stored} (v.servers p).lastSyncSequence

variable {v : Volume} {heartBeatInterval : ℤ} {n o p : ℕ} {f g : File}

lemma inv_start (n : ℕ) (master : ℤ) : Inv (start n master) where
  own := by simp [start, DataServer.fresh]
  reported := by
    intro p b hb
    have hmem := eq_of_mem_replicate (mem_of_getElem? hb)
    rw [hmem]
    exact le_rfl
  upTo := by
    rintro p - - f ⟨o, -, hf⟩
    simp [start, DataServer.fresh] at hf

lemma Inv.freshRead (h : Inv v) (op : VolumeOp) : v.FreshRead heartBeatInterval op := by
  cases op with
  | read sequence now =>
    intro i hi hmaster o ho f hf hseq
    obtain ⟨b, hb, hle⟩ := DatasevrVolume.of_readdatasevrblockGet hi hmaster
    have hlt : i < v.blockCount := (List.getElem?_eq_some_iff.1 hb).1
    have hmark := h.reported i b hb
    exact h.upTo i hlt hmaster f ⟨o, ho, hf⟩ (by omega)
  | upload o f | copy o p | heartbeat p time | syncreport p time => trivial

/-! ### The steps -/

lemma acked_upload (heartBeatInterval : ℤ) (f : File) (ho : o < v.blockCount) :
    (v.step heartBeatInterval (.upload o f)).acked = insert f v.acked := by
  have hstep : v.step heartBeatInterval (.upload o f) = { v with
      servers := update v.servers o ((v.servers o).fileUploadDone f) } := if_pos ho
  ext g
  rw [hstep]
  simp only [acked, blockCount, Set.mem_ofPred_eq, Set.mem_insert_iff]
  constructor
  · rintro ⟨q, hq, hg⟩
    by_cases hqo : q = o
    · subst hqo
      rw [update_self, DataServer.fileUploadDone, mem_append, mem_singleton] at hg
      exact hg.symm.imp_right fun hg => ⟨q, hq, hg⟩
    · rw [update_of_ne hqo] at hg
      exact Or.inr ⟨q, hq, hg⟩
  · rintro (rfl | ⟨q, hq, hg⟩)
    · exact ⟨o, ho, by simp [DataServer.fileUploadDone]⟩
    · refine ⟨q, hq, ?_⟩
      by_cases hqo : q = o
      · subst hqo
        simp [DataServer.fileUploadDone, hg]
      · rwa [update_of_ne hqo]

/-- An upload keeps the promises of the other servers because it lies above their marks. -/
lemma Inv.step_upload (h : Inv v) (hop : v.InOrder (.upload o f)) :
    Inv (v.step heartBeatInterval (.upload o f)) := by
  by_cases ho : o < v.blockCount
  · have hacked := acked_upload heartBeatInterval f ho
    have hstep : v.step heartBeatInterval (.upload o f) = { v with
        servers := update v.servers o ((v.servers o).fileUploadDone f) } := if_pos ho
    rw [hstep] at hacked ⊢
    refine ⟨?_, ?_, ?_⟩
    · intro p g hg
      by_cases hpo : p = o
      · subst hpo
        simp only [update_self, DataServer.fileUploadDone, mem_append] at hg ⊢
        exact hg.imp_left (h.own p g)
      · simp only [update_of_ne hpo] at hg ⊢
        exact h.own p g hg
    · intro p b hb
      have hmark := h.reported p b hb
      by_cases hpo : p = o
      · subst hpo
        simpa [DataServer.fileUploadDone] using hmark
      · simpa [update_of_ne hpo] using hmark
    · intro p hp hmaster
      rw [hacked, upTo_insert_acked]
      by_cases hpo : p = o
      · subst hpo
        simp only [update_self, DataServer.fileUploadDone]
        refine ⟨fun _ => by simp, (h.upTo p hp hmaster).mono ?_ le_rfl⟩
        exact fun g hg => mem_append_left _ hg
      · simp only [update_of_ne hpo]
        have hlt := hop p hp hpo hmaster
        exact ⟨fun hle => absurd hle (not_le.2 hlt), h.upTo p hp hmaster⟩
  · rw [step, if_neg ho]
    exact h

lemma acked_congr (v : Volume) {servers : ℕ → DataServer} (copied : ℕ → ℕ → ℕ)
    (hlog : ∀ q, (servers q).binlog = (v.servers q).binlog) :
    acked ⟨v.dv, servers, copied⟩ = v.acked := by
  simp only [acked, blockCount, hlog]

lemma binlog_update_asyncfileDone (v : Volume) (p : ℕ) (g : File) (q : ℕ) :
    (update v.servers p ((v.servers p).asyncfileDone g) q).binlog = (v.servers q).binlog := by
  by_cases hqp : q = p
  · subst hqp
    rw [update_self]
    rfl
  · rw [update_of_ne hqp]

/-- A copy keeps the promise of its receiver because the earlier files are there. -/
lemma Inv.step_copy (h : Inv v) (hop : v.InOrder (.copy o p)) :
    Inv (v.step heartBeatInterval (.copy o p)) := by
  rcases hnext : v.nextCopy o p with _ | g
  · have hstep : v.step heartBeatInterval (.copy o p) = v := by rw [step, hnext]
    rw [hstep]
    exact h
  have hstep : v.step heartBeatInterval (.copy o p) = { v with
      servers := update v.servers p ((v.servers p).asyncfileDone g)
      copied := fun o' p' => if o' = o ∧ p' = p then v.copied o p + 1 else v.copied o' p' } := by
    rw [step, hnext]
  rw [hstep]
  refine ⟨?_, ?_, ?_⟩
  · intro q f hf
    simp only [v.binlog_update_asyncfileDone p g] at hf
    by_cases hqp : q = p
    · subst hqp
      simp only [update_self]
      exact mem_append_left _ (h.own q f hf)
    · simp only [update_of_ne hqp]
      exact h.own q f hf
  · intro q b hb
    have hle := h.reported q b hb
    by_cases hqp : q = p
    · subst hqp
      simp only [update_self, DataServer.lastSyncSequence_asyncfileDone]
      exact hle.trans (le_max_left _ _)
    · simpa only [update_of_ne hqp] using hle
  · intro q hq hmaster
    have hold := h.upTo q hq hmaster
    rw [v.acked_congr _ (v.binlog_update_asyncfileDone p g)]
    by_cases hqp : q = p
    · subst hqp
      -- the receiver: its mark becomes the maximum
      have hstored : {f | f ∈ ((v.servers q).asyncfileDone g).stored}
          = insert g {f | f ∈ (v.servers q).stored} := by
        ext f
        simp [DataServer.asyncfileDone, or_comm]
      simp only [update_self]
      rw [DataServer.lastSyncSequence_asyncfileDone, hstored, hold.upTo_insert_stored_iff]
      rintro f ⟨o', ho', hf⟩ hle
      exact hop hmaster g hnext o' ho' f hf hle
    · simpa only [update_of_ne hqp] using hold

lemma Inv.modifyBlock {u : DatasevrBlock → DatasevrBlock} (h : Inv v)
    (hu : ∀ b, b.lastSyncSequence ≤ (v.servers p).lastSyncSequence →
      (u b).lastSyncSequence ≤ (v.servers p).lastSyncSequence) :
    Inv { v with dv := v.dv.modifyBlock p u } := by
  have hlen := length_modify u v.dv.blocks p
  refine ⟨h.own, ?_, ?_⟩
  · intro q b hb
    simp only [DatasevrVolume.modifyBlock, getElem?_modify, Option.mem_def,
      Option.map_eq_map, Option.map_eq_some_iff] at hb
    obtain ⟨b', hb', rfl⟩ := hb
    split_ifs with hpq
    · subst hpq
      exact hu b' (h.reported p b' hb')
    · exact h.reported q b' hb'
  · simpa only [acked, blockCount, DatasevrVolume.modifyBlock, hlen] using h.upTo

lemma Inv.step {op : VolumeOp} (h : Inv v) (hop : v.InOrder op) :
    Inv (v.step heartBeatInterval op) := by
  cases op with
  | upload o f => exact h.step_upload hop
  | copy o p => exact h.step_copy hop
  | heartbeat p time => exact h.modifyBlock fun b hb => hb
  | syncreport p time => exact h.modifyBlock fun b hb => le_rfl
  | read sequence now =>
    obtain ⟨hblocks, hmaster⟩ := v.dv.readdatasevrblockGet_frame heartBeatInterval now sequence
    refine ⟨h.own, ?_, ?_⟩
    · simpa only [Volume.step, hblocks] using h.reported
    · simpa only [Volume.step, acked, blockCount, hblocks, hmaster] using h.upTo

end Volume

/-- **Read freshness.**  In every run of a volume of any number of servers in which each
upload has a timestamp above the marks of the other slaves and each copy to a slave comes
after those of all files with timestamps up to its own, every read that returns a slave
returns one that stores all files of the volume with the timestamp. -/
theorem volume_freshRead (heartBeatInterval : ℤ) (n : ℕ) (master : ℤ) (ops : List VolumeOp)
    (hops : Along (Volume.step heartBeatInterval) (fun v op _ => v.InOrder op)
      (Volume.start n master) ops) :
    Along (Volume.step heartBeatInterval) (fun v op _ => v.FreshRead heartBeatInterval op)
      (Volume.start n master) ops := by
  refine Along.of_inv (Volume.inv_start n master) hops ?_
  intro v op hinv hop
  exact ⟨hinv.step hop, hinv.freshRead op⟩

/-- Two files of one second. -/
def fileA : File := ⟨[97], 5⟩

@[inherit_doc fileA]
def fileB : File := ⟨[98], 5⟩

/-- A file is copied to the slave, which reports it, and is then read. -/
def readCopied : List VolumeOp :=
  [.upload 0 fileA, .copy 0 1, .syncreport 1 7, .read 5 fun _ => 8]

theorem volume_freshRead_readCopied :
    Along (Volume.step 30) (fun v op _ => v.FreshRead 30 op) (Volume.start 2 0) readCopied ∧
      ((run (Volume.step 30) (Volume.start 2 0) (readCopied.take 3)).dv.readdatasevrblockGet 30
        (fun _ => 8) 5).1 = some 1 :=
  ⟨volume_freshRead 30 2 0 readCopied (by decide), by decide⟩

/-- The first of two files of one second is copied and reported, and the second is read. -/
theorem secondFileOfSecond_not_freshRead :
    ¬ Along (Volume.step 30) (fun v op _ => v.FreshRead 30 op) (Volume.start 2 0)
      [.upload 0 fileA, .upload 0 fileB, .copy 0 1, .syncreport 1 7, .read 5 fun _ => 8] := by
  decide

end Lfs.Replication
