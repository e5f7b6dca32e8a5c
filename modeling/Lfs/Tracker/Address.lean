/-
The addresses that the tracker hands out.

Four replies name dataservers by their address: those to a write request, to a read request, to
the request for the master and to a heartbeat.  The address is that of the block, which
`handle_cmd_register` writes when it makes the block.  A server that registers again keeps its
block, and of the address in the new request nothing is stored.
-/
import Lfs.Tracker.Heartbeat
import Lfs.Tracker.Master
import Lfs.Tracker.WlcRun

namespace Lfs.Tracker

open Lfs.Lib List Option Function DatasevrBlock Clusters

/-- The address of a server, as a register request gives it and a reply hands it out. -/
abbrev Address := List Byte × ℤ

def DatasevrBlock.address (b : DatasevrBlock) : Address := (b.ipAddr, b.port)

inductive TrackerReq where
  | base (req : Req)
  | fullsync (mapInfo dsIpaddr : List Byte)
  | readtracker (mapInfo : List Byte) (fileTimestamp : ℤ)
deriving DecidableEq

/-- A tracker, with a record of the registrations that it has handled. -/
structure AddressRun where
  /-- `none` once freed memory has been read. -/
  clusters : Option Clusters
  /-- `last_read_block_index` of each volume. -/
  lastRead : UInt32 → ℤ
  /-- The address in the first register request of each block. -/
  first : UInt32 × UInt32 → Option Address
  /-- The address in its last one. -/
  last : UInt32 × UInt32 → Option Address

namespace AddressRun

def start : AddressRun := ⟨some .start, fun _ => 0, fun _ => none, fun _ => none⟩

variable (hashFunc : List Byte → UInt32) (heartBeatInterval : ℤ)

def volume (t : Clusters) (lastRead : UInt32 → ℤ) (mapInfo : List Byte) : DatasevrVolume :=
  { volumeOf t.blocks (hashFunc mapInfo) with
    lastReadBlockIndex := lastRead (hashFunc mapInfo) }

/-- The blocks that the reply to a request names. -/
def named (now : ℤ) (t : Clusters) (lastRead : UInt32 → ℤ) : TrackerReq → List DatasevrBlock
  | .base .writetracker =>
    match t.handleCmdWritetracker heartBeatInterval now with
    | some (some i, t) => [t.block i]
    | _ => []
  | .base (.heartbeat mapInfo dsIpaddr) =>
    match t.datasevrblockFind hashFunc mapInfo dsIpaddr with
    | none => []
    | some _ =>
      let t := t.handleCmdHeartbeat hashFunc heartBeatInterval now mapInfo dsIpaddr
      let blocks := (volume hashFunc t lastRead mapInfo).blocks
      if 1 < blocks.length then peers dsIpaddr blocks else []
  | .base _ => []
  | .fullsync mapInfo dsIpaddr =>
    match t.datasevrblockFind hashFunc mapInfo dsIpaddr with
    | none => []
    | some _ => (t.blocks.find? fun b => b.parentVolumeId = hashFunc mapInfo).toList
  | .readtracker mapInfo fileTimestamp =>
    let dv := volume hashFunc t lastRead mapInfo
    let i := (dv.readdatasevrblockGet heartBeatInterval (fun _ => now) fileTimestamp).1
    (i.bind fun i => dv.blocks[i]?).toList

/-- What a request does to the record. -/
def recorded (r : AddressRun) : TrackerReq → AddressRun
  | .base (.register req) =>
    let ids := (hashFunc req.mapInfo, hashFunc req.dsIpaddr)
    let address := some (req.dsIpaddr, req.dsPort.toInt)
    { r with
      first := update r.first ids ((r.first ids).or address)
      last := update r.last ids address }
  | _ => r

def step (r : AddressRun) (a : ℤ × TrackerReq) : AddressRun :=
  match r.clusters with
  | none => r
  | some t =>
    match a.2 with
    | .base req =>
      { r.recorded hashFunc a.2 with
        clusters := t.handle hashFunc heartBeatInterval a.1 req }
    | .fullsync mapInfo dsIpaddr =>
      { r with clusters := some (t.handleCmdFullsyncreq hashFunc mapInfo dsIpaddr).2 }
    | .readtracker mapInfo fileTimestamp =>
      let dv := volume hashFunc t r.lastRead mapInfo
      let dv := (dv.readdatasevrblockGet heartBeatInterval (fun _ => a.1) fileTimestamp).2
      { r with
        lastRead := update r.lastRead (hashFunc mapInfo) dv.lastReadBlockIndex }

def reply (r : AddressRun) (a : ℤ × TrackerReq) : List DatasevrBlock :=
  match r.clusters with
  | none => []
  | some t => named hashFunc heartBeatInterval a.1 t r.lastRead a.2

/-- The reply gives each server the address of its last register request. -/
def Current (r : AddressRun) (a : ℤ × TrackerReq) : Prop :=
  ∀ b ∈ r.reply hashFunc heartBeatInterval a, r.last b.ids = some b.address

instance (r : AddressRun) (a : ℤ × TrackerReq) :
    Decidable (r.Current hashFunc heartBeatInterval a) :=
  inferInstanceAs (Decidable (∀ b ∈ _, _))

/-- The servers that the reply names have last registered with the address with which they have
first registered. -/
def Kept (r : AddressRun) (a : ℤ × TrackerReq) : Prop :=
  ∀ b ∈ r.reply hashFunc heartBeatInterval a, r.last b.ids = r.first b.ids

end AddressRun

/-! ### What the replies read -/

def DatasevrBlock.placed (b : DatasevrBlock) : (UInt32 × UInt32) × Address := (b.ids, b.address)

lemma untouched_placed : Clusters.Untouched placed :=
  ⟨fun _ _ => rfl, fun _ _ _ => rfl, fun _ _ _ _ _ => rfl, fun _ => rfl⟩

namespace Clusters

variable {hashFunc : List Byte → UInt32} {heartBeatInterval now : ℤ} {t t' : Clusters} {L : List ℕ}

lemma Indexed.lt_of_handleCmdWritetracker (h : t.Indexed L) {i : ℕ}
    (hw : t.handleCmdWritetracker heartBeatInterval now = some (some i, t')) :
    i < t'.blocks.length := by
  have hlen : t'.blocks.length = t.blocks.length := by
    simpa using congrArg List.length (untouched_placed.handleCmdWritetracker hw)
  rw [h.handleCmdWritetracker_eq] at hw
  split_ifs at hw
  obtain ⟨hdblk, -⟩ := Prod.mk.inj (some.inj hw)
  obtain ⟨y, hy, rfl⟩ := map_eq_some_iff.1 hdblk
  rw [hlen]
  exact h.dblk_lt y ((dropWhile_sublist _).subset (mem_of_head? hy))

/-- A request that is handled leaves a list of nodes for registered blocks. -/
lemma Indexed.handle (h : t.Indexed L) {req : Req}
    (hreq : t.handle hashFunc heartBeatInterval now req = some t') : ∃ L', t'.Indexed L' := by
  by_cases hwrite : req = .writetracker
  · subst hwrite
    obtain ⟨⟨dblk, t₁⟩, hw, rfl⟩ := map_eq_some_iff.1 hreq
    rw [h.handleCmdWritetracker_eq] at hw
    split_ifs at hw
    obtain ⟨-, rfl⟩ := Prod.mk.inj (some.inj hw)
    exact ⟨L, h.of_extends (extends_offLine _)⟩
  cases hreports : t.reports hashFunc req with
  | none =>
    obtain ⟨t₁, ht₁, hext⟩ := extends_handle hreports hwrite heartBeatInterval now
    obtain rfl := some.inj (ht₁.symm.trans hreq)
    exact ⟨L, h.of_extends hext⟩
  | some p =>
    obtain ⟨conns, totalMb, freeMb, draws, -, hi, ht₁, -⟩ :=
      handle_of_reports hreports heartBeatInterval now
    obtain rfl := some.inj (ht₁.symm.trans hreq)
    by_cases hnew : t.load p.1 = conns * (t.block p.1).weight
    · exact ⟨L, h.of_extends (extends_statreport hnew)⟩
    · obtain ⟨L', hL', -⟩ := h.statreport hi hnew now totalMb freeMb draws
      exact ⟨L', hL'⟩

lemma Indexed.handleCmdFullsyncreq (h : t.Indexed L) (mapInfo dsIpaddr : List Byte) :
    (t.handleCmdFullsyncreq hashFunc mapInfo dsIpaddr).2.Indexed L := by
  rw [Clusters.handleCmdFullsyncreq]
  cases t.datasevrblockFind hashFunc mapInfo dsIpaddr with
  | none => exact h
  | some i =>
    cases t.blocks.find? fun b => b.parentVolumeId = hashFunc mapInfo with
    | none => exact h.of_extends (extends_modifyBlock (f := .setState .waitSync) fun _ => rfl)
    | some master => exact h.of_extends (extends_modifyBlock (f := .setState .syncing) fun _ => rfl)

end Clusters

namespace AddressRun

variable {hashFunc : List Byte → UInt32} {heartBeatInterval now : ℤ} {t t' : Clusters} {L : List ℕ}
  {lastRead : UInt32 → ℤ} {b : DatasevrBlock}

lemma mem_of_mem_volume {mapInfo : List Byte}
    (hb : b ∈ (volume hashFunc t lastRead mapInfo).blocks) : b ∈ t.blocks :=
  (mem_filter.1 hb).1

/-- **The replies** name registered blocks, with the addresses that are stored. -/
lemma placed_of_mem_named (h : t.Indexed L) {req : TrackerReq}
    (hb : b ∈ named hashFunc heartBeatInterval now t lastRead req) :
    b.placed ∈ t.blocks.map placed := by
  cases req with
  | base req =>
    cases req with
    | writetracker =>
      rw [named] at hb
      split at hb
      · rename_i i t' hw
        obtain rfl := mem_singleton.1 hb
        have hlt := h.lt_of_handleCmdWritetracker hw
        rw [← untouched_placed.handleCmdWritetracker hw]
        refine mem_map_of_mem ?_
        rw [block, getD_eq_getElem?_getD, getElem?_eq_getElem hlt]
        exact getElem_mem hlt
      · exact absurd hb (by simp)
    | heartbeat mapInfo dsIpaddr =>
      rw [named] at hb
      split at hb
      · exact absurd hb (by simp)
      · dsimp only at hb
        split_ifs at hb
        · have hmem := mem_of_mem_volume (mem_filter.1 hb).1
          have hplaced : b.placed ∈ (t.handleCmdHeartbeat hashFunc heartBeatInterval now mapInfo
              dsIpaddr).blocks.map placed := mem_map_of_mem hmem
          rwa [untouched_placed.handleCmdHeartbeat] at hplaced
        · exact absurd hb (by simp)
    | register | syncreport | statreport | quited => exact absurd hb (by simp [named])
  | fullsync mapInfo dsIpaddr =>
    rw [named] at hb
    split at hb
    · exact absurd hb (by simp)
    · exact mem_map_of_mem (mem_of_find?_eq_some (mem_toList.1 hb))
  | readtracker mapInfo fileTimestamp =>
    obtain ⟨i, -, hi⟩ := bind_eq_some_iff.1 (mem_toList.1 hb)
    exact mem_map_of_mem (mem_of_mem_volume (mem_of_getElem? hi))

/-! ### What is stored -/

/-- Each block has the address `first` of its first register request, and there is one for each
server that has registered. -/
structure Stored (first : UInt32 × UInt32 → Option Address) (t : Clusters) : Prop where
  indexed : ∃ L, t.Indexed L
  address : ∀ p ∈ t.blocks.map placed, first p.1 = some p.2
  registered : ∀ ids, first ids ≠ none → ids ∈ t.blocks.map DatasevrBlock.ids

/-- What is stored, unless freed memory has been read. -/
def Inv (r : AddressRun) : Prop := ∀ t ∈ r.clusters, Stored r.first t

variable {r : AddressRun} {first : UInt32 × UInt32 → Option Address}

lemma inv_start : start.Inv := by
  rintro t ⟨⟩
  exact ⟨⟨[], indexed_start⟩, nofun, fun ids h => absurd rfl h⟩

lemma Stored.of_placed (h : Stored first t) (hindexed : ∃ L, t'.Indexed L)
    (hplaced : t'.blocks.map placed = t.blocks.map placed) :
    Stored first t' := by
  have hids (t : Clusters) : t.blocks.map DatasevrBlock.ids =
      (t.blocks.map placed).map Prod.fst := by
    rw [List.map_map]
    rfl
  refine ⟨hindexed, ?_, ?_⟩
  · rw [hplaced]
    exact h.address
  · rw [hids t', hplaced, ← hids t]
    exact h.registered

/-- A registration stores the address in the request only if it is the first one of its server. -/
lemma Stored.handleCmdRegister (h : Stored first t) (req : DatasevrRegBodyReq) :
    Stored (update first (hashFunc req.mapInfo, hashFunc req.dsIpaddr)
        ((first (hashFunc req.mapInfo, hashFunc req.dsIpaddr)).or
          (some (req.dsIpaddr, req.dsPort.toInt))))
      (t.handleCmdRegister hashFunc req) := by
  obtain ⟨L, hL⟩ := h.indexed
  have hindexed : ∃ L, (t.handleCmdRegister hashFunc req).Indexed L :=
    ⟨L, hL.of_extends (extends_handleCmdRegister req)⟩
  have hmem : (hashFunc req.mapInfo, hashFunc req.dsIpaddr) ∈ t.blocks.map DatasevrBlock.ids ↔ _ :=
    DatasevrCluster.datasevrblockFind_isSome_iff.symm
  rw [Clusters.handleCmdRegister] at hindexed ⊢
  cases hfind : t.datasevrblockFind hashFunc req.mapInfo req.dsIpaddr with
  | some i =>
    -- the server is known: its block keeps the address
    rw [hfind] at hmem hindexed
    obtain ⟨b, hb, hids⟩ := mem_map.1 (hmem.2 rfl)
    have haddress : first (hashFunc req.mapInfo, hashFunc req.dsIpaddr) = some b.address :=
      hids ▸ h.address _ (mem_map_of_mem hb)
    rw [haddress, some_or, ← haddress, update_eq_self]
    exact h.of_placed hindexed (map_modifyBlock _ fun _ => rfl)
  | none =>
    rw [hfind] at hmem hindexed
    have hnew : (hashFunc req.mapInfo, hashFunc req.dsIpaddr) ∉ t.blocks.map DatasevrBlock.ids :=
      fun hold => absurd (hmem.1 hold) (by simp)
    have hnone : first (hashFunc req.mapInfo, hashFunc req.dsIpaddr) = none := by
      by_contra hsome
      exact hnew (h.registered _ hsome)
    rw [hnone, none_or]
    refine ⟨hindexed, fun p hp => ?_, fun ids hids => ?_⟩
    · rw [map_append, mem_append, map_singleton, mem_singleton] at hp
      rcases hp with hp | rfl
      · obtain ⟨b, hb, rfl⟩ := mem_map.1 hp
        have hne : b.ids ≠ (hashFunc req.mapInfo, hashFunc req.dsIpaddr) :=
          fun heq => hnew (heq ▸ mem_map_of_mem hb)
        exact (update_of_ne hne _ _).trans (h.address _ hp)
      · exact update_self ..
    · rw [map_append, mem_append, map_singleton, mem_singleton]
      by_cases heq : ids = (hashFunc req.mapInfo, hashFunc req.dsIpaddr)
      · exact .inr heq
      · rw [update_of_ne heq] at hids
        exact .inl (h.registered ids hids)

lemma Inv.step (h : r.Inv) (a : ℤ × TrackerReq) :
    (AddressRun.step hashFunc heartBeatInterval r a).Inv := by
  obtain ⟨now, req⟩ := a
  obtain ⟨clusters, lastRead, first, last⟩ := r
  cases clusters with
  | none => exact h
  | some t =>
    have ht := h t rfl
    obtain ⟨L, hL⟩ := ht.indexed
    intro t' ht'
    cases req with
    | base req =>
      by_cases hreq : ∃ q, req = .register q
      · obtain ⟨q, rfl⟩ := hreq
        obtain rfl := some.inj ht'
        exact ht.handleCmdRegister q
      · have hplaced := untouched_placed.handle (fun q hq => hreq ⟨q, hq⟩) ht'
        have hstored := ht.of_placed (hL.handle ht') hplaced
        cases req with
        | register q => exact absurd ⟨q, rfl⟩ hreq
        | _ => exact hstored
    | fullsync mapInfo dsIpaddr =>
      obtain rfl := some.inj ht'
      exact ht.of_placed ⟨L, hL.handleCmdFullsyncreq mapInfo dsIpaddr⟩
        (map_handleCmdFullsyncreq (fun _ _ => rfl) ..)
    | readtracker mapInfo fileTimestamp =>
      obtain rfl := some.inj ht'
      exact ht

lemma Inv.first_of_mem_reply (h : r.Inv) {a : ℤ × TrackerReq}
    (hb : b ∈ r.reply hashFunc heartBeatInterval a) : r.first b.ids = some b.address := by
  rw [reply] at hb
  cases hr : r.clusters with
  | none =>
    rw [hr] at hb
    exact absurd hb (by simp)
  | some t =>
    rw [hr] at hb
    obtain ⟨L, hL⟩ := (h t hr).indexed
    exact (h t hr).address _ (placed_of_mem_named hL hb)

/-- **The address that is handed out.**  Over a run of requests, each reply gives the servers that it
names the addresses of their last register requests, exactly if each server that a reply names has
last registered with the address with which it has first registered. -/
theorem address_current_iff (hashFunc : List Byte → UInt32) (heartBeatInterval : ℤ)
    (reqs : List (ℤ × TrackerReq)) :
    Along (AddressRun.step hashFunc heartBeatInterval)
        (fun r a _ => r.Kept hashFunc heartBeatInterval a) start reqs ↔
      Along (AddressRun.step hashFunc heartBeatInterval)
        (fun r a _ => r.Current hashFunc heartBeatInterval a) start reqs := by
  refine Along.iff_of_inv' inv_start (fun r a h => ?_) fun r a h _ => h.step a
  refine forall₂_congr fun b hb => ?_
  rw [h.first_of_mem_reply hb]

/-- A registration of the server `1` of the volume `1`, at the port `port`. -/
def registration (port : Int32) : TrackerReq := .base (.register ⟨[1], [1], port, 1, 30, 0, 0⟩)

/-- The server has been moved from the port 80 to the port 81 and registers again.  The reply to the
next request for the master names the port 80. -/
theorem moved_not_current :
    ¬ Along (AddressRun.step (fun _ => 0) 30) (fun r a _ => r.Current (fun _ => 0) 30 a) start
      [(0, registration 80), (1, registration 81), (2, .fullsync [1] [1])] := by
  decide +kernel

end AddressRun

end Lfs.Tracker
