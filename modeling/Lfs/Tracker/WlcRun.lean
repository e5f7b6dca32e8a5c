/-
The skip list over runs of requests: one node for each block.

The skip list is an index of the blocks by load.  A report of the load removes the node of the block
by searching for the product of the old number of connections and the weight.  It finds the node only
if the node was inserted for this product: if a registration has changed the weight since, the node
stays, and the block gets a second one.  It also does not find a node that is hidden.
-/
import Lfs.Lib.Run
import Lfs.Tracker.Requests
import Lfs.Tracker.WlcSpec

namespace Lfs.Tracker

open Lfs.Lib WlcSkiplist Option Function Clusters

/-- What holds of a result can be decided if it is a result. -/
instance decidableElim {α : Type} {P : α → Prop} [DecidablePred P] :
    ∀ x : Option α, Decidable (x.elim False P)
  | none => isFalse id
  | some a => inferInstanceAs (Decidable (P a))

/-- A run of the tracker.  The blocks that have sent a stat report are recorded beside the state,
with the product of connections and weight at their last one. -/
structure WlcRun where
  /-- The state, or `none` once freed memory has been read. -/
  clusters : Option Clusters
  reported : ℕ → Option ℤ

def WlcRun.start : WlcRun := ⟨some .start, fun _ => none⟩

namespace Clusters

variable (hashFunc : List Byte → UInt32) (heartBeatInterval : ℤ)

/-- The block whose load a request reports, and the product that it then has. -/
def reports (t : Clusters) : Req → Option (ℕ × ℤ)
  | .statreport mapInfo dsIpaddr conns _ _ _ =>
    (t.datasevrblockFind hashFunc mapInfo dsIpaddr).map fun i => (i, conns * (t.block i).weight)
  | _ => none

/-- There is at most one node for each block, and it has the product of the last report. -/
def OneNode (t : Clusters) (reported : ℕ → Option ℤ) : Prop :=
  (∀ a ∈ t.wlcsl.nodes, ∀ b ∈ t.wlcsl.nodes, t.wlcsl.dblk a = t.wlcsl.dblk b → a = b) ∧
    ∀ a ∈ t.wlcsl.nodes, reported (t.wlcsl.dblk a) = some (t.wlcsl.wlc a)

instance (t : Clusters) (reported : ℕ → Option ℤ) : Decidable (t.OneNode reported) :=
  inferInstanceAs (Decidable (_ ∧ _))

/-- A report of the product `new` replaces the node of the block `i`, if there is one: its `wlc` is
the present product, and if that changes then the node is the first with this `wlc` and the id of the
block, and it is not hidden. -/
def Replaces (t : Clusters) (i : ℕ) (new : ℤ) : Prop :=
  ∀ a ∈ t.wlcsl.nodes, t.wlcsl.dblk a = i → t.wlcsl.wlc a = t.load i ∧
    (t.load i = new ∨ ¬ t.wlcsl.Hidden t.blockId t.wlcsl.nodes (t.load i) i ∧
      t.wlcsl.nodes.find? (t.wlcsl.Matches t.blockId (t.load i) i) = some a)

instance (t : Clusters) (i : ℕ) (new : ℤ) : Decidable (t.Replaces i new) :=
  inferInstanceAs (Decidable (∀ a ∈ _, _))

/-- The nodes before the first one that is not expired are hidden. -/
def Passable (now : ℤ) (t : Clusters) : Prop :=
  ∀ y ∈ t.wlcsl.nodes.takeWhile fun y => t.expired heartBeatInterval now (t.wlcsl.dblk y),
    t.wlcsl.Hidden t.blockId t.wlcsl.nodes (t.wlcsl.wlc y) (t.wlcsl.dblk y)

instance (now : ℤ) (t : Clusters) : Decidable (t.Passable heartBeatInterval now) :=
  inferInstanceAs (Decidable (∀ y ∈ _, _))

/-- The condition on a request at the time `now`. -/
def Keeps (now : ℤ) (t : Clusters) : Req → Prop
  | .writetracker => t.Passable heartBeatInterval now
  | req => ∀ p ∈ t.reports hashFunc req, t.Replaces p.1 p.2

end Clusters

namespace WlcRun

variable (hashFunc : List Byte → UInt32) (heartBeatInterval : ℤ)

/-- One request, with the time at which it is handled. -/
def step (r : WlcRun) (a : ℤ × Req) : WlcRun :=
  match r.clusters with
  | none => r
  | some t =>
    { clusters := t.handle hashFunc heartBeatInterval a.1 a.2
      reported :=
        match t.reports hashFunc a.2 with
        | none => r.reported
        | some (i, new) => update r.reported i (some new) }

/-- No freed memory has been read, and the skip list has one node for each block. -/
def OneNode (r : WlcRun) : Prop := r.clusters.elim False fun t => t.OneNode r.reported

instance : DecidablePred OneNode := fun _ => inferInstanceAs (Decidable (Option.elim _ False _))

def Keeps (r : WlcRun) (a : ℤ × Req) : Prop :=
  r.clusters.elim False fun t => t.Keeps hashFunc heartBeatInterval a.1 a.2

end WlcRun

namespace Clusters

variable {hashFunc : List Byte → UInt32} {heartBeatInterval : ℤ} {t t' : Clusters} {L : List ℕ}
  {reported : ℕ → Option ℤ} {i draws : ℕ} {now conns totalMb freeMb : ℤ}

/-- The skip list holds the nodes `L`, all for registered blocks. -/
structure Indexed (t : Clusters) (L : List ℕ) : Prop where
  rep : Rep t.blockId t.wlcsl L
  dblk_lt : ∀ a ∈ L, t.wlcsl.dblk a < t.blocks.length

lemma indexed_start : start.Indexed [] := ⟨rep_create, by simp⟩

lemma Indexed.of_extends (h : t.Indexed L) (ht : t.Extends t') : t'.Indexed L := by
  obtain ⟨⟨hnodup, hallocated, hlive, hpos, hle, hlevel, hlevels, hsorted⟩, hlt⟩ := h
  refine ⟨?_, fun a ha => ?_⟩
  · rw [ht.wlcsl]
    refine ⟨hnodup, hallocated, hlive, hpos, hle, hlevel, hlevels, ?_⟩
    refine hsorted.imp_of_mem fun {a b} ha hb hab => ?_
    rw [NodeLe, ht.blockId _ (hlt a ha), ht.blockId _ (hlt b hb)]
    exact hab
  · rw [ht.wlcsl]
    exact (hlt a ha).trans_le ht.length_le

lemma Extends.oneNode_iff (ht : t.Extends t') : t'.OneNode reported ↔ t.OneNode reported := by
  rw [OneNode, OneNode, ht.wlcsl]

lemma extends_statreport (hnew : t.load i = conns * (t.block i).weight) :
    t.Extends (t.statreport now i conns totalMb freeMb draws) := by
  have hmodify : t.Extends (t.modifyBlock i (.statreport now conns totalMb freeMb)) :=
    extends_modifyBlock fun _ => rfl
  exact ⟨if_pos hnew, hmodify.length_le, hmodify.blockId⟩

lemma blockId_statreport : (t.statreport now i conns totalMb freeMb draws).blockId = t.blockId :=
  funext fun j => block_eq_of_map DatasevrBlock.blockId
    (map_modifyBlock (f := .statreport now conns totalMb freeMb) _ fun _ => rfl) j

/-- The skip list after a report that changes the product: the node that was found is gone, and there
is a new one. -/
lemma Indexed.statreport (h : t.Indexed L) (hi : i < t.blocks.length)
    (hnew : t.load i ≠ conns * (t.block i).weight) (now totalMb freeMb : ℤ) (draws : ℕ) :
    ∃ L', (t.statreport now i conns totalMb freeMb draws).Indexed L' ∧
      (∀ a, a ∈ L' ↔ a = t.wlcsl.allocated ∨
        a ∈ L ∧ t.wlcsl.wlcslFind t.blockId (t.load i) i ≠ some a) ∧
      (t.statreport now i conns totalMb freeMb draws).wlcsl.wlc =
        update t.wlcsl.wlc t.wlcsl.allocated (conns * (t.block i).weight) ∧
      (t.statreport now i conns totalMb freeMb draws).wlcsl.dblk =
        update t.wlcsl.dblk t.wlcsl.allocated i := by
  have hpos : 0 < wlcslRandomLevel draws := by
    rw [wlcslRandomLevel]
    split_ifs
    · exact Nat.succ_pos draws
    · decide
  obtain ⟨L', hmem, hrep, hwlc, hdblk⟩ :=
    h.rep.clusterWlcBlockAdd hpos ⟨i, t.load i, conns * (t.block i).weight⟩ hnew
  have hmem' (a : ℕ) : a ∈ L' ↔ a = t.wlcsl.allocated ∨
      a ∈ L ∧ t.wlcsl.wlcslFind t.blockId (t.load i) i ≠ some a := by
    rw [hmem, h.rep.mem_removed]
  refine ⟨L', ⟨?_, fun a ha => ?_⟩, hmem', hwlc, hdblk⟩
  · rw [blockId_statreport]
    exact hrep
  · rw [Clusters.statreport, length_modifyBlock]
    dsimp only
    rw [← load, hdblk]
    rcases (hmem' a).1 ha with rfl | ⟨ha, -⟩
    · rwa [update_self]
    · rw [h.rep.update_eq _ _ ha]
      exact h.dblk_lt a ha

/-- **One report.**  It keeps one node for each block exactly if it replaces the node of the
block. -/
lemma Indexed.oneNode_statreport_iff (h : t.Indexed L) (hone : t.OneNode reported)
    (hi : i < t.blocks.length) (now conns totalMb freeMb : ℤ) (draws : ℕ) :
    (t.statreport now i conns totalMb freeMb draws).OneNode
        (update reported i (some (conns * (t.block i).weight))) ↔
      t.Replaces i (conns * (t.block i).weight) := by
  obtain ⟨hinj, hwlc⟩ := hone
  by_cases hnew : t.load i = conns * (t.block i).weight
  · rw [(extends_statreport hnew).oneNode_iff]
    constructor
    · rintro ⟨-, hwlc'⟩ a ha rfl
      have hreport := hwlc' a ha
      rw [update_self, some_inj] at hreport
      exact ⟨hreport.symm.trans hnew.symm, .inl hnew⟩
    · refine fun hreplace => ⟨hinj, fun a ha => ?_⟩
      by_cases hai : t.wlcsl.dblk a = i
      · rw [hai, update_self, (hreplace a ha hai).1, hnew]
      · rw [update_of_ne hai]
        exact hwlc a ha
  · obtain ⟨L', hindexed, hmem, hwlc', hdblk'⟩ :=
      h.statreport hi hnew now totalMb freeMb draws
    rw [h.rep.nodes_eq] at hinj hwlc
    rw [OneNode, hindexed.rep.nodes_eq, hwlc', hdblk', Replaces, h.rep.nodes_eq]
    have hdblk (a : ℕ) (ha : a ∈ L) : update t.wlcsl.dblk t.wlcsl.allocated i a = t.wlcsl.dblk a :=
      h.rep.update_eq _ _ ha
    constructor
    · -- an old node of the block that were not found would be a second one
      rintro ⟨hinj', -⟩ a ha hai
      have hfind : t.wlcsl.wlcslFind t.blockId (t.load i) i = some a := by
        by_contra hfind
        have heq : a = t.wlcsl.allocated := by
          refine hinj' a ((hmem a).2 (.inr ⟨ha, hfind⟩)) _ ((hmem _).2 (.inl rfl)) ?_
          rw [hdblk a ha, hai, update_self]
        exact lt_irrefl _ (heq ▸ h.rep.allocated a ha)
      exact ⟨(h.rep.of_wlcslFind hfind).2.1, .inr (h.rep.wlcslFind_eq_some_iff.1 hfind)⟩
    · intro hreplace
      -- the old nodes that are left are those of the other blocks
      have hother (a : ℕ) (ha : a ∈ L)
          (hfind : t.wlcsl.wlcslFind t.blockId (t.load i) i ≠ some a) : t.wlcsl.dblk a ≠ i := by
        intro hai
        rcases (hreplace a ha hai).2 with heq | hfind'
        · exact hnew heq
        · exact hfind (h.rep.wlcslFind_eq_some_iff.2 hfind')
      refine ⟨fun a ha b hb hab => ?_, fun a ha => ?_⟩
      · rcases (hmem a).1 ha with rfl | ⟨ha, hfa⟩ <;> rcases (hmem b).1 hb with rfl | ⟨hb, hfb⟩
        · rfl
        · rw [update_self, hdblk b hb] at hab
          exact absurd hab.symm (hother b hb hfb)
        · rw [update_self, hdblk a ha] at hab
          exact absurd hab (hother a ha hfa)
        · rw [hdblk a ha, hdblk b hb] at hab
          exact hinj a ha b hb hab
      · rcases (hmem a).1 ha with rfl | ⟨ha, hfa⟩
        · rw [update_self, update_self, update_self]
        · rw [hdblk a ha, h.rep.update_eq _ _ ha, update_of_ne (hother a ha hfa)]
          exact hwlc a ha

/-- A request for a server, if the nodes before the first one that is not expired are hidden. -/
lemma Indexed.handleCmdWritetracker_eq (h : t.Indexed L) (heartBeatInterval now : ℤ) :
    t.handleCmdWritetracker heartBeatInterval now = if t.Passable heartBeatInterval now then
        some ((L.dropWhile fun y => t.expired heartBeatInterval now (t.wlcsl.dblk y)).head?.map
            t.wlcsl.dblk,
          ((L.takeWhile fun y => t.expired heartBeatInterval now (t.wlcsl.dblk y)).map
            t.wlcsl.dblk).foldl (fun t i => t.modifyBlock i .setOffLine) t)
      else none := by
  have hpass : t.Passable heartBeatInterval now ↔
      ∀ y ∈ L.takeWhile fun y => t.expired heartBeatInterval now (t.wlcsl.dblk y),
        t.wlcsl.Hidden t.blockId L (t.wlcsl.wlc y) (t.wlcsl.dblk y) := by
    rw [Passable, h.rep.nodes_eq]
  rw [handleCmdWritetracker, h.rep.clusterWlcWriteBlockGet_eq, if_congr hpass rfl rfl]
  split_ifs
  · rw [map_some]
    dsimp only
    -- the skip list is the one that was there
    have hwlcsl := (extends_offLine (t := t) ((L.takeWhile fun y =>
      t.expired heartBeatInterval now (t.wlcsl.dblk y)).map t.wlcsl.dblk)).wlcsl
    generalize List.foldl _ _ _ = t' at hwlcsl ⊢
    rw [← hwlcsl]
  · rfl

lemma handle_of_reports {req : Req} {new : ℤ} (hreq : t.reports hashFunc req = some (i, new))
    (heartBeatInterval now : ℤ) :
    ∃ conns totalMb freeMb draws, new = conns * (t.block i).weight ∧ i < t.blocks.length ∧
      t.handle hashFunc heartBeatInterval now req =
        some (t.statreport now i conns totalMb freeMb draws) ∧ req ≠ .writetracker := by
  cases req with
  | statreport mapInfo dsIpaddr conns totalMb freeMb draws =>
    rw [reports, map_eq_some_iff] at hreq
    obtain ⟨j, hfind, heq⟩ := hreq
    obtain ⟨rfl, rfl⟩ := Prod.mk.inj heq
    refine ⟨conns, totalMb, freeMb, draws, rfl, lt_of_datasevrblockFind hfind, ?_, nofun⟩
    rw [handle, handleCmdStatreport, hfind]
  | _ => simp [reports] at hreq

/-- The other requests but those for a server leave the skip list as it is. -/
lemma extends_handle {req : Req} (hreq : t.reports hashFunc req = none)
    (hwrite : req ≠ .writetracker) (heartBeatInterval now : ℤ) :
    ∃ t', t.handle hashFunc heartBeatInterval now req = some t' ∧ t.Extends t' := by
  cases req with
  | register req => exact ⟨_, rfl, extends_handleCmdRegister req⟩
  | heartbeat mapInfo dsIpaddr => exact ⟨_, rfl, extends_handleCmdHeartbeat now mapInfo dsIpaddr⟩
  | syncreport mapInfo dsIpaddr sequence =>
    refine ⟨_, rfl, ?_⟩
    rw [handleCmdSyncreport]
    cases t.datasevrblockFind hashFunc mapInfo dsIpaddr with
    | some i => exact extends_modifyBlock fun _ => rfl
    | none => exact Extends.refl t
  | statreport mapInfo dsIpaddr conns totalMb freeMb draws =>
    rw [reports, map_eq_none_iff] at hreq
    refine ⟨_, rfl, ?_⟩
    rw [handleCmdStatreport, hreq]
    exact Extends.refl t
  | quited mapInfo dsIpaddr =>
    refine ⟨_, rfl, ?_⟩
    rw [handleCmdQuited]
    cases t.datasevrblockFind hashFunc mapInfo dsIpaddr with
    | some i => exact extends_modifyBlock fun _ => rfl
    | none => exact Extends.refl t
  | writetracker => exact absurd rfl hwrite

lemma keeps_iff {req : Req} (hwrite : req ≠ .writetracker) :
    t.Keeps hashFunc heartBeatInterval now req ↔
      ∀ p ∈ t.reports hashFunc req, t.Replaces p.1 p.2 := by
  cases req with
  | writetracker => exact absurd rfl hwrite
  | _ => exact Iff.rfl

end Clusters

namespace WlcRun

variable {hashFunc : List Byte → UInt32} {heartBeatInterval : ℤ} {r : WlcRun} {a : ℤ × Req}

/-- The skip list is a list of nodes for registered blocks, one for each block. -/
structure Inv (r : WlcRun) : Prop where
  oneNode : r.OneNode
  indexed : ∃ t L, r.clusters = some t ∧ t.Indexed L

lemma inv_start : start.Inv := by
  refine ⟨⟨?_, ?_⟩, _, _, rfl, indexed_start⟩
  · rw [indexed_start.rep.nodes_eq]
    simp
  · rw [indexed_start.rep.nodes_eq]
    simp

lemma Inv.of_extends {reported : ℕ → Option ℤ} {t t' : Clusters} {L : List ℕ}
    (hone : t.OneNode reported) (h : t.Indexed L) (ht : t.Extends t') : Inv ⟨some t', reported⟩ :=
  ⟨ht.oneNode_iff.2 hone, _, _, rfl, h.of_extends ht⟩

/-- **One request.**  It keeps the invariant exactly if it satisfies the condition. -/
lemma Inv.step_iff (h : r.Inv) :
    (r.Keeps hashFunc heartBeatInterval a ↔ (r.step hashFunc heartBeatInterval a).OneNode) ∧
      (r.Keeps hashFunc heartBeatInterval a → (r.step hashFunc heartBeatInterval a).Inv) := by
  obtain ⟨now, req⟩ := a
  obtain ⟨_, reported⟩ := r
  obtain ⟨hone, t, L, rfl, hindexed⟩ := h
  change t.OneNode reported at hone
  by_cases hwrite : req = .writetracker
  · subst hwrite
    simp only [Keeps, step, Clusters.Keeps, reports, handle, elim_some,
      hindexed.handleCmdWritetracker_eq]
    split_ifs with hpass
    · have hinv := Inv.of_extends hone hindexed (extends_offLine ((L.takeWhile fun y =>
        t.expired heartBeatInterval now (t.wlcsl.dblk y)).map t.wlcsl.dblk))
      exact ⟨iff_of_true hpass hinv.oneNode, fun _ => hinv⟩
    · exact ⟨iff_of_false hpass id, fun hp => absurd hp hpass⟩
  have hkeeps : Keeps hashFunc heartBeatInterval ⟨some t, reported⟩ (now, req) ↔
      ∀ p ∈ t.reports hashFunc req, t.Replaces p.1 p.2 := keeps_iff hwrite
  rw [hkeeps]
  cases hreq : t.reports hashFunc req with
  | none =>
    obtain ⟨t', hhandle, ht'⟩ := extends_handle hreq hwrite heartBeatInterval now
    have hinv := Inv.of_extends hone hindexed ht'
    simp only [step, hreq, hhandle]
    exact ⟨iff_of_true nofun hinv.oneNode, fun _ => hinv⟩
  | some p =>
    obtain ⟨i, new⟩ := p
    obtain ⟨conns, totalMb, freeMb, draws, rfl, hi, hhandle, -⟩ :=
      handle_of_reports hreq heartBeatInterval now
    have hiff := hindexed.oneNode_statreport_iff hone hi now conns totalMb freeMb draws
    simp only [step, hreq, hhandle, mem_some, forall_eq']
    refine ⟨hiff.symm, fun hreplace => ⟨hiff.2 hreplace, ?_⟩⟩
    by_cases hnew : t.load i = conns * (t.block i).weight
    · exact ⟨_, _, rfl, hindexed.of_extends (extends_statreport hnew)⟩
    · obtain ⟨L', hindexed', -⟩ := hindexed.statreport hi hnew now totalMb freeMb draws
      exact ⟨_, _, rfl, hindexed'⟩

/-- **One node for each block.**  Over a run of requests the skip list has at most one node for each
block, with the product of connections and weight at the last report of the block, exactly if each
report finds the node that it has to replace, and each request for a server finds only hidden nodes
before the first one that is not expired. -/
theorem one_node_iff (hashFunc : List Byte → UInt32) (heartBeatInterval : ℤ)
    (reqs : List (ℤ × Req)) :
    Along (step hashFunc heartBeatInterval)
        (fun r a _ => r.Keeps hashFunc heartBeatInterval a) start reqs ↔
      Along (step hashFunc heartBeatInterval) (fun _ _ r' => r'.OneNode) start reqs :=
  Along.iff_of_inv' inv_start (fun _ _ h => h.step_iff.1) fun _ _ h => h.step_iff.2

/-- A registration of the server `1` of the volume `1`, with the weight `weight`. -/
def registration (weight : Int32) : Req := .register ⟨[1], [1], 0, weight, 0, 0, 0⟩

/-- A report of the server `1` with `conns` connections. -/
def report (conns : ℤ) : Req := .statreport [1] [1] conns 0 0 0

/-- The server has 5 connections, and is then registered again with the weight 2.  With its next
report it has two nodes. -/
theorem reweighted_not_oneNode : ¬ Along (step (fun _ => 0) 30) (fun _ _ r' => r'.OneNode) start
      [(0, registration 1), (1, report 5), (2, registration 2), (3, report 7)] := by
  decide +kernel

end WlcRun

end Lfs.Tracker
