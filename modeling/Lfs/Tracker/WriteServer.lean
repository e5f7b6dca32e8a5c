/-
The choice of a server to write to, over runs of requests.

A request for a server gets the block of the first node that is not expired.  The skip list gets out
of step with the blocks when the first report of a block does not change the product of its connections
and its weight, so that no node is inserted, when a registration changes the product, and when a report
does not find the node that it has to replace.
-/
import Lfs.Tracker.WlcRun

namespace Lfs.Tracker

open Lfs.Lib WlcSkiplist List Option Function Clusters

namespace Clusters

variable (hashFunc : List Byte → UInt32) (heartBeatInterval : ℤ)

/-- The block has sent a stat report, and its last heartbeat is within `heart_beat_interval`. -/
def Live (now : ℤ) (t : Clusters) (reported : ℕ → Option ℤ) (i : ℕ) : Prop :=
  (reported i).isSome ∧ now - (t.block i).lastHeartbeatTime ≤ heartBeatInterval

instance (now : ℤ) (t : Clusters) (reported : ℕ → Option ℤ) (i : ℕ) :
    Decidable (t.Live heartBeatInterval now reported i) := inferInstanceAs (Decidable (_ ∧ _))

/-- What a request for a server should get: a live block with the smallest load, and nothing only if
there is no live block. -/
def Best (now : ℤ) (t : Clusters) (reported : ℕ → Option ℤ) : Option ℕ → Prop
  | some i => t.Live heartBeatInterval now reported i ∧
      ∀ j < t.blocks.length, t.Live heartBeatInterval now reported j → t.load i ≤ t.load j
  | none => ∀ j < t.blocks.length, ¬ t.Live heartBeatInterval now reported j

instance (now : ℤ) (t : Clusters) (reported : ℕ → Option ℤ) :
    DecidablePred (t.Best heartBeatInterval now reported)
  | some _ => inferInstanceAs (Decidable (_ ∧ ∀ j < _, _))
  | none => inferInstanceAs (Decidable (∀ j < _, _))

/-- The first report of a block changes the product, and does not take the node of another block for
that of the block. -/
def First (t : Clusters) (reported : ℕ → Option ℤ) (i : ℕ) (new : ℤ) : Prop :=
  reported i = none → t.load i ≠ new ∧ (t.wlcsl.Hidden t.blockId t.wlcsl.nodes (t.load i) i ∨
      t.wlcsl.nodes.find? (t.wlcsl.Matches t.blockId (t.load i) i) = none)

instance (t : Clusters) (reported : ℕ → Option ℤ) (i : ℕ) (new : ℤ) :
    Decidable (t.First reported i new) := inferInstanceAs (Decidable (_ → _ ∧ (_ ∨ _)))

/-- The condition on a request at the time `now`. -/
def InStep (now : ℤ) (t : Clusters) (reported : ℕ → Option ℤ) : Req → Prop
  | .register req => ∀ i ∈ t.datasevrblockFind hashFunc req.mapInfo req.dsIpaddr,
      (reported i).isSome → (t.block i).currConns * req.weight.toInt = t.load i
  | .writetracker => t.Passable heartBeatInterval now
  | req => ∀ p ∈ t.reports hashFunc req, t.Replaces p.1 p.2 ∧ t.First reported p.1 p.2

instance (now : ℤ) (t : Clusters) (reported : ℕ → Option ℤ) :
    DecidablePred (t.InStep hashFunc heartBeatInterval now reported)
  | .register _ => inferInstanceAs (Decidable (∀ i ∈ (_ : Option ℕ), _ → _))
  | .writetracker => inferInstanceAs (Decidable (t.Passable _ _))
  | .heartbeat .. | .syncreport .. | .statreport .. | .quited .. =>
    inferInstanceAs (Decidable (∀ p ∈ (_ : Option _), _ ∧ _))

end Clusters

namespace WlcRun

variable (hashFunc : List Byte → UInt32) (heartBeatInterval : ℤ)

/-- A request for a server gets what it should. -/
def Answers (r : WlcRun) (a : ℤ × Req) : Prop :=
  a.2 = .writetracker → r.clusters.elim False fun t =>
    (t.handleCmdWritetracker heartBeatInterval a.1).elim False fun w =>
      t.Best heartBeatInterval a.1 r.reported w.1

instance (r : WlcRun) (a : ℤ × Req) : Decidable (r.Answers heartBeatInterval a) :=
  inferInstanceAs (Decidable (_ → r.clusters.elim False fun t =>
    (t.handleCmdWritetracker heartBeatInterval a.1).elim False fun w =>
      t.Best heartBeatInterval a.1 r.reported w.1))

def InStep (r : WlcRun) (a : ℤ × Req) : Prop :=
  r.clusters.elim False fun t => t.InStep hashFunc heartBeatInterval a.1 r.reported a.2

instance (r : WlcRun) (a : ℤ × Req) : Decidable (r.InStep hashFunc heartBeatInterval a) :=
  inferInstanceAs (Decidable (Option.elim _ False _))

end WlcRun

namespace Clusters

variable {hashFunc : List Byte → UInt32} {heartBeatInterval : ℤ} {t t' : Clusters} {L : List ℕ}
  {reported : ℕ → Option ℤ} {i draws : ℕ} {now conns totalMb freeMb : ℤ}

/-- The skip list is in step with the blocks: the blocks that have reported have one node each, with
their present load. -/
structure Synced (t : Clusters) (reported : ℕ → Option ℤ) (L : List ℕ) : Prop extends
    t.Indexed L where
  node : ∀ i, (reported i).isSome ↔ ∃ a ∈ L, t.wlcsl.dblk a = i
  oneNode : t.OneNode fun i => some (t.load i)

lemma synced_start : start.Synced (fun _ => none) [] := by
  refine ⟨indexed_start, by simp, ?_, ?_⟩
  · rw [indexed_start.rep.nodes_eq]
    simp
  · rw [indexed_start.rep.nodes_eq]
    simp

lemma Synced.wlc_eq (h : t.Synced reported L) {a : ℕ} (ha : a ∈ L) :
    t.wlcsl.wlc a = t.load (t.wlcsl.dblk a) := by
  have hwlc := h.oneNode.2 a (h.rep.nodes_eq.symm ▸ ha)
  exact (some.inj hwlc).symm

lemma Synced.of_extends (h : t.Synced reported L) (ht : t.Extends t')
    (hload : ∀ i < t.blocks.length, (reported i).isSome → t'.load i = t.load i) :
    t'.Synced reported L := by
  refine ⟨h.toIndexed.of_extends ht, fun i => ?_, ht.oneNode_iff.2 ⟨h.oneNode.1, fun a ha => ?_⟩⟩
  · rw [ht.wlcsl]
    exact h.node i
  · rw [h.rep.nodes_eq] at ha
    dsimp only
    rw [hload _ (h.dblk_lt a ha) ((h.node _).2 ⟨a, ha, rfl⟩), h.wlc_eq ha]

lemma load_handleCmdRegister {req : DatasevrRegBodyReq} (hi : i < t.blocks.length)
    (hreq : t.datasevrblockFind hashFunc req.mapInfo req.dsIpaddr = some i →
      (t.block i).currConns * req.weight.toInt = t.load i) :
    (t.handleCmdRegister hashFunc req).load i = t.load i := by
  rw [handleCmdRegister]
  cases hfind : t.datasevrblockFind hashFunc req.mapInfo req.dsIpaddr with
  | none => rw [load, load, block_append hi]
  | some j =>
    dsimp only
    by_cases hji : j = i
    · subst hji
      rw [load, block_modifyBlock_self hi]
      exact hreq hfind
    · rw [load, load, block_modifyBlock_ne hji]

lemma load_modifyBlock {f : DatasevrBlock → DatasevrBlock}
    (hf : ∀ b, (f b).currConns * (f b).weight = b.currConns * b.weight) (j : ℕ) :
    (t.modifyBlock i f).load j = t.load j :=
  block_eq_of_map (fun b => b.currConns * b.weight) (map_modifyBlock _ hf) j

lemma load_statreport_self (hi : i < t.blocks.length) :
    (t.statreport now i conns totalMb freeMb draws).load i = conns * (t.block i).weight := by
  have hblock : (t.statreport now i conns totalMb freeMb draws).block i =
      (t.block i).statreport now conns totalMb freeMb := block_modifyBlock_self hi
  rw [load, hblock]
  rfl

lemma load_statreport_ne {j : ℕ} (hij : i ≠ j) :
    (t.statreport now i conns totalMb freeMb draws).load j = t.load j := by
  have hblock : (t.statreport now i conns totalMb freeMb draws).block j = t.block j :=
    block_modifyBlock_ne hij
  rw [load, load, hblock]

lemma Synced.dblk_of_wlcslFind {new : ℤ} (h : t.Synced reported L) (hnew : t.load i ≠ new)
    (hreplace : t.Replaces i new) (hfirst : t.First reported i new) {a : ℕ}
    (hfind : t.wlcsl.wlcslFind t.blockId (t.load i) i = some a) : t.wlcsl.dblk a = i := by
  have hiff (x : ℕ) : t.wlcsl.wlcslFind t.blockId (t.load i) i = some x ↔ _ :=
    h.rep.wlcslFind_eq_some_iff
  rw [Replaces, h.rep.nodes_eq] at hreplace
  rw [First, h.rep.nodes_eq] at hfirst
  cases hreported : reported i with
  | none =>
    obtain ⟨hnot, hsome⟩ := (hiff a).1 hfind
    rcases (hfirst hreported).2 with hhidden | hnone
    · exact absurd hhidden hnot
    · rw [hnone] at hsome
      exact absurd hsome (by simp)
  | some v =>
    obtain ⟨x, hx, hxi⟩ := (h.node i).1 (by rw [hreported]; rfl)
    have hfindx := (hiff x).2 ((hreplace x hx hxi).2.resolve_left hnew)
    rw [hfind] at hfindx
    rw [some.inj hfindx, hxi]

lemma Synced.statreport (h : t.Synced reported L) (hi : i < t.blocks.length)
    (hreplace : t.Replaces i (conns * (t.block i).weight))
    (hfirst : t.First reported i (conns * (t.block i).weight)) (now totalMb freeMb : ℤ)
    (draws : ℕ) :
    ∃ L', (t.statreport now i conns totalMb freeMb draws).Synced
      (update reported i (some (conns * (t.block i).weight))) L' := by
  have hload : (fun j => some ((t.statreport now i conns totalMb freeMb draws).load j)) =
      update (fun j => some (t.load j)) i (some (conns * (t.block i).weight)) := by
    funext j
    by_cases hji : j = i
    · subst hji
      rw [update_self, load_statreport_self hi]
    · rw [update_of_ne hji, load_statreport_ne (Ne.symm hji)]
  have hone := (h.oneNode_statreport_iff h.oneNode hi now conns totalMb freeMb draws).2 hreplace
  rw [← hload] at hone
  by_cases hnew : t.load i = conns * (t.block i).weight
  · -- nothing changes, and the block has reported before
    have hext : t.Extends (t.statreport now i conns totalMb freeMb draws) :=
      extends_statreport hnew
    have hsome : (reported i).isSome :=
      isSome_iff_ne_none.2 fun hnone => (hfirst hnone).1 hnew
    refine ⟨L, h.toIndexed.of_extends hext, fun j => ?_, hone⟩
    rw [hext.wlcsl, ← h.node j]
    by_cases hji : j = i
    · subst hji
      simp [hsome]
    · rw [update_of_ne hji]
  · obtain ⟨L', hindexed, hmem, -, hdblk⟩ :=
      h.toIndexed.statreport hi hnew now totalMb freeMb draws
    refine ⟨L', hindexed, fun j => ?_, hone⟩
    rw [hdblk]
    by_cases hji : j = i
    · subst hji
      rw [update_self]
      exact iff_of_true rfl ⟨_, (hmem _).2 (.inl rfl), update_self ..⟩
    rw [update_of_ne hji, h.node j]
    constructor
    · rintro ⟨a, ha, rfl⟩
      have hother : t.wlcsl.wlcslFind t.blockId (t.load i) i ≠ some a := fun hfind =>
        hji (h.dblk_of_wlcslFind hnew hreplace hfirst hfind)
      exact ⟨a, (hmem a).2 (.inr ⟨ha, hother⟩), h.rep.update_eq _ _ ha⟩
    · rintro ⟨a, ha, hai⟩
      rcases (hmem a).1 ha with rfl | ⟨ha, -⟩
      · rw [update_self] at hai
        exact absurd hai.symm hji
      · rw [h.rep.update_eq _ _ ha] at hai
        exact ⟨a, ha, hai⟩

/-- **The choice of a server.**  The block of the first node that is not expired is live, and no live
block has a smaller load. -/
lemma Synced.best (h : t.Synced reported L) : t.Best heartBeatInterval now reported
      ((L.dropWhile fun y => t.expired heartBeatInterval now (t.wlcsl.dblk y)).head?.map
        t.wlcsl.dblk) := by
  set p : ℕ → Bool := fun y => t.expired heartBeatInterval now (t.wlcsl.dblk y) with hp
  have hlive {a : ℕ} (ha : a ∈ L) :
      t.Live heartBeatInterval now reported (t.wlcsl.dblk a) ↔ p a = false := by
    rw [Live, and_iff_right ((h.node _).2 ⟨a, ha, rfl⟩), hp]
    simp [expired]
  have hsplit : L.takeWhile p ++ L.dropWhile p = L := takeWhile_append_dropWhile
  -- the node of a live block is not one of those before the first that is not expired
  have hnode {j : ℕ} (hj : t.Live heartBeatInterval now reported j) :
      ∃ a ∈ L.dropWhile p, t.wlcsl.dblk a = j := by
    obtain ⟨a, ha, rfl⟩ := (h.node j).1 hj.1
    rw [← hsplit] at ha
    rcases mem_append.1 ha with ha | ha
    · have hexpired := mem_takeWhile_imp ha
      rw [(hlive ((takeWhile_sublist p).mem ha)).1 hj] at hexpired
      exact nomatch hexpired
    · exact ⟨a, ha, rfl⟩
  cases hdrop : L.dropWhile p with
  | nil =>
    rintro j - hj
    obtain ⟨a, ha, -⟩ := hnode hj
    rw [hdrop] at ha
    exact not_mem_nil ha
  | cons x S =>
    have hx : x ∈ L := (dropWhile_sublist p).mem (hdrop ▸ mem_cons_self)
    refine ⟨(hlive hx).2 (head?_dropWhile x (by rw [hdrop]; rfl)), fun j _ hj => ?_⟩
    obtain ⟨a, ha, rfl⟩ := hnode hj
    have haL := (dropWhile_sublist p).mem ha
    rw [← h.wlc_eq hx, ← h.wlc_eq haL]
    rw [hdrop] at ha
    rcases mem_cons.1 ha with rfl | ha
    · exact le_rfl
    · have hsorted := h.rep.sorted.sublist (dropWhile_sublist p)
      rw [hdrop] at hsorted
      rcases (pairwise_cons.1 hsorted).1 a ha with hlt | ⟨heq, -⟩
      · exact hlt.le
      · exact heq.le

/-- A request that neither reports a load nor asks for a server keeps the skip list in step. -/
lemma Synced.handle {req : Req} (h : t.Synced reported L) (hreq : t.reports hashFunc req = none)
    (hwrite : req ≠ .writetracker) (hstep : t.InStep hashFunc heartBeatInterval now reported req) :
    ∃ t', t.handle hashFunc heartBeatInterval now req = some t' ∧ t'.Synced reported L := by
  obtain ⟨t', hhandle, ht'⟩ := extends_handle hreq hwrite heartBeatInterval now
  refine ⟨t', hhandle, h.of_extends ht' fun i hi hsome => ?_⟩
  cases req with
  | register req =>
    obtain rfl := some.inj hhandle
    exact load_handleCmdRegister hi fun hfind => hstep i hfind hsome
  | heartbeat mapInfo dsIpaddr =>
    obtain rfl := some.inj hhandle
    exact block_eq_of_map (fun b => b.currConns * b.weight)
      (map_handleCmdHeartbeat _ (fun _ => rfl) (fun _ => rfl) _ _) i
  | syncreport mapInfo dsIpaddr sequence =>
    obtain rfl := some.inj hhandle
    rw [handleCmdSyncreport]
    cases t.datasevrblockFind hashFunc mapInfo dsIpaddr with
    | some j => exact load_modifyBlock (f := .syncreport now sequence) (fun _ => rfl) i
    | none => rfl
  | statreport mapInfo dsIpaddr conns totalMb freeMb draws =>
    obtain rfl := some.inj hhandle
    rw [reports, map_eq_none_iff] at hreq
    rw [handleCmdStatreport, hreq]
  | quited mapInfo dsIpaddr =>
    obtain rfl := some.inj hhandle
    rw [handleCmdQuited]
    cases t.datasevrblockFind hashFunc mapInfo dsIpaddr with
    | some j => exact load_modifyBlock (f := .setOffLine) (fun _ => rfl) i
    | none => rfl
  | writetracker => exact absurd rfl hwrite

lemma inStep_of_reports {req : Req} {new : ℤ}
    (hstep : t.InStep hashFunc heartBeatInterval now reported req)
    (hreq : t.reports hashFunc req = some (i, new)) :
    t.Replaces i new ∧ t.First reported i new := by
  cases req with
  | statreport mapInfo dsIpaddr conns totalMb freeMb draws => exact hstep (i, new) hreq
  | _ => simp [reports] at hreq

end Clusters

namespace WlcRun

variable {hashFunc : List Byte → UInt32} {heartBeatInterval : ℤ} {r : WlcRun} {a : ℤ × Req}

/-- No freed memory has been read, and the skip list is in step with the blocks. -/
def Synced (r : WlcRun) : Prop := ∃ t L, r.clusters = some t ∧ t.Synced r.reported L

/-- **One request** that satisfies the condition keeps the skip list in step, and gets the right
server if it asks for one. -/
lemma Synced.step (h : r.Synced) (hstep : r.InStep hashFunc heartBeatInterval a) :
    (r.step hashFunc heartBeatInterval a).Synced ∧ r.Answers heartBeatInterval a := by
  obtain ⟨now, req⟩ := a
  obtain ⟨_, reported⟩ := r
  obtain ⟨t, L, rfl, hsynced⟩ := h
  change t.Synced reported L at hsynced
  change t.InStep hashFunc heartBeatInterval now reported req at hstep
  by_cases hwrite : req = .writetracker
  · subst hwrite
    have hpass : t.Passable heartBeatInterval now := hstep
    have hhandle := hsynced.handleCmdWritetracker_eq heartBeatInterval now
    have hext := extends_offLine (t := t) ((L.takeWhile fun y =>
      t.expired heartBeatInterval now (t.wlcsl.dblk y)).map t.wlcsl.dblk)
    rw [if_pos hpass] at hhandle
    refine ⟨⟨_, L, ?_, hsynced.of_extends hext fun i _ _ => ?_⟩, fun _ => ?_⟩
    · simp only [WlcRun.step, handle, hhandle, map_some]
    · exact block_eq_of_map (fun b => b.currConns * b.weight)
        (map_offLine _ (fun _ => rfl) _) i
    · simp only [hhandle, elim_some]
      exact hsynced.best
  refine ⟨?_, fun heq => absurd heq hwrite⟩
  cases hreq : t.reports hashFunc req with
  | none =>
    obtain ⟨t', hhandle, ht'⟩ := hsynced.handle hreq hwrite hstep
    refine ⟨t', L, ?_, ?_⟩
    · simp only [WlcRun.step, hhandle]
    · simp only [WlcRun.step, hreq]
      exact ht'
  | some p =>
    obtain ⟨i, new⟩ := p
    obtain ⟨conns, totalMb, freeMb, draws, rfl, hi, hhandle, -⟩ :=
      handle_of_reports hreq heartBeatInterval now
    obtain ⟨hreplace, hfirst⟩ := inStep_of_reports hstep hreq
    obtain ⟨L', hL'⟩ := hsynced.statreport hi hreplace hfirst now totalMb freeMb draws
    refine ⟨t.statreport now i conns totalMb freeMb draws, L', ?_, ?_⟩
    · simp only [WlcRun.step, hhandle]
    · simp only [WlcRun.step, hreq]
      exact hL'

/-- **The server with the smallest load.**  Over a run of requests that keep the skip list in step, a
request for a server gets a block with the smallest load among those that have reported and whose
heartbeat is recent, and nothing only if there is none. -/
theorem write_server_best (hashFunc : List Byte → UInt32) (heartBeatInterval : ℤ)
    (reqs : List (ℤ × Req))
    (h : Along (step hashFunc heartBeatInterval)
      (fun r a _ => r.InStep hashFunc heartBeatInterval a) start reqs) :
    Along (step hashFunc heartBeatInterval) (fun r a _ => r.Answers heartBeatInterval a) start
      reqs :=
  Along.of_inv (I := Synced) ⟨_, _, rfl, synced_start⟩ h fun _ _ hr hstep => hr.step hstep

/-- Two servers whose loads change from 5 and 3 to 2 and 3, and a request for a server. -/
theorem write_server_best_two : Along (step (fun bs => (bs.headD 0).toUInt32) 30)
        (fun r a _ => r.InStep (fun bs => (bs.headD 0).toUInt32) 30 a) start
        [(0, registration 1), (1, .register ⟨[1], [2], 0, 1, 0, 0, 0⟩), (2, report 5),
          (3, .statreport [1] [2] 3 0 0 1), (4, report 2), (5, .writetracker)] ∧
      Along (step (fun bs => (bs.headD 0).toUInt32) 30) (fun r a _ => r.Answers 30 a) start
        [(0, registration 1), (1, .register ⟨[1], [2], 0, 1, 0, 0, 0⟩), (2, report 5),
          (3, .statreport [1] [2] 3 0 0 1), (4, report 2), (5, .writetracker)] := by
  have hstep : Along (step (fun bs => (bs.headD 0).toUInt32) 30)
      (fun r a _ => r.InStep (fun bs => (bs.headD 0).toUInt32) 30 a) start
      [(0, registration 1), (1, .register ⟨[1], [2], 0, 1, 0, 0, 0⟩), (2, report 5),
        (3, .statreport [1] [2] 3 0 0 1), (4, report 2), (5, .writetracker)] := by decide +kernel
  exact ⟨hstep, write_server_best _ _ _ hstep⟩

/-- A server reports that it has no connections.  It gets no node, and a request for a server gets
none. -/
theorem idle_not_answered : ¬ Along (step (fun _ => 0) 30) (fun r a _ => r.Answers 30 a) start
      [(0, registration 1), (1, report 0), (2, .writetracker)] := by
  decide +kernel

end WlcRun

end Lfs.Tracker
