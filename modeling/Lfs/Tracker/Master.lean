/-
The master of a volume at several trackers (`handle_cmd_fullsyncreq`, `cluster_datasevrmasterblock_get`).

A dataserver registers with every tracker, and asks one of them for the master of its volume, from
which it copies all files before it serves.  A tracker takes the first server of the volume that it
hears of, and the trackers do not talk to each other.
-/
import Lfs.Tracker.Registry

namespace Lfs.Tracker

open Lfs.Lib List DatasevrBlock Clusters

/-! ### The request for the master -/

/-- The reply to `PROTOCOL_CMD_DATASERVER_FULLSYNC`. -/
inductive FullsyncResp where
  | errorUnregister
  | syncsettingWaiting
  /-- `datasevr_masterblock_body_resp`. -/
  | masterblock (masterIpaddr : List Byte) (masterPort : ℤ)
deriving DecidableEq

def DatasevrBlock.setState (state : DatasevrState) (b : DatasevrBlock) : DatasevrBlock :=
  { b with state := state }

namespace DatasevrCluster

variable (hashFunc : List Byte → UInt32) (mapInfo : List Byte)

def handleCmdFullsyncreq (dsIpaddr : List Byte) (c : DatasevrCluster) :
    Option (FullsyncResp × DatasevrCluster) := do
  let vid := hashFunc mapInfo
  let bid := hashFunc dsIpaddr
  let set := fun state => c.modifyVolume vid (.modifyBlockId bid (.setState state))
  match ← c.datasevrblockByidFind vid bid with
  | none => some (.errorUnregister, c)
  | some _ =>
    match ← c.datasevrmasterblockGet hashFunc mapInfo with
    | none => some (.syncsettingWaiting, set .waitSync)
    | some master => some (.masterblock master.ipAddr master.port, set .syncing)

def masterIp (c : DatasevrCluster) : Option (Option (List Byte)) :=
  (c.datasevrmasterblockGet hashFunc mapInfo).map (Option.map ipAddr)

/-- The server `x` is told to copy from `y`, and does so, as `y` is not its own address. -/
def SyncsFrom (c : DatasevrCluster) (x y : List Byte) : Prop :=
  (∃ port c', c.handleCmdFullsyncreq hashFunc mapInfo x = some (.masterblock y port, c')) ∧ y ≠ x

end DatasevrCluster

/-- `handle_cmd_fullsyncreq` on the list of the registered blocks.  The master of a volume is its
first block. -/
def Clusters.handleCmdFullsyncreq (hashFunc : List Byte → UInt32) (mapInfo dsIpaddr : List Byte)
    (t : Clusters) : FullsyncResp × Clusters :=
  match t.datasevrblockFind hashFunc mapInfo dsIpaddr with
  | none => (.errorUnregister, t)
  | some i =>
    match t.blocks.find? fun b => b.parentVolumeId = hashFunc mapInfo with
    | none => (.syncsettingWaiting, t.modifyBlock i (.setState .waitSync))
    | some master => (.masterblock master.ipAddr master.port, t.modifyBlock i (.setState .syncing))

lemma Clusters.map_handleCmdFullsyncreq {β : Type} {π : DatasevrBlock → β}
    (hπ : ∀ state b, π (.setState state b) = π b) (hashFunc : List Byte → UInt32)
    (mapInfo dsIpaddr : List Byte) (t : Clusters) :
    (t.handleCmdFullsyncreq hashFunc mapInfo dsIpaddr).2.blocks.map π = t.blocks.map π := by
  rw [handleCmdFullsyncreq]
  cases t.datasevrblockFind hashFunc mapInfo dsIpaddr with
  | none => rfl
  | some i =>
    cases t.blocks.find? fun b => b.parentVolumeId = hashFunc mapInfo with
    | none => exact map_modifyBlock π (hπ .waitSync)
    | some master => exact map_modifyBlock π (hπ .syncing)

/-! ### What registration writes once -/

variable {hashFunc : List Byte → UInt32} {mapInfo : List Byte} {t : Clusters}
  {req : DatasevrRegBodyReq} {reqs : List DatasevrRegBodyReq} {vid bid : UInt32}

/-- The ids and the address of a block, which no request changes. -/
def DatasevrBlock.key (b : DatasevrBlock) : (UInt32 × UInt32) × List Byte := (b.ids, b.ipAddr)

def DatasevrRegBodyReq.key (hashFunc : List Byte → UInt32) (req : DatasevrRegBodyReq) :
    (UInt32 × UInt32) × List Byte :=
  ((hashFunc req.mapInfo, hashFunc req.dsIpaddr), req.dsIpaddr)

namespace Clusters

/-- The blocks that have been registered. -/
def keys (t : Clusters) : List ((UInt32 × UInt32) × List Byte) := t.blocks.map key

lemma keys_handleCmdRegister : (t.handleCmdRegister hashFunc req).keys =
      if ∃ k ∈ t.keys, k.1 = (req.key hashFunc).1 then t.keys
      else t.keys ++ [req.key hashFunc] := by
  rw [handleCmdRegister, datasevrblockFind, datasevrblockByidFind]
  cases hidx : t.blocks.findIdx? fun b => decide (b.parentVolumeId = hashFunc req.mapInfo) &&
      decide (b.blockId = hashFunc req.dsIpaddr) with
  | some i =>
    obtain ⟨hi, hp, -⟩ := findIdx?_eq_some_iff_getElem.1 hidx
    have hids : (t.blocks[i]).ids = (req.key hashFunc).1 := by
      simpa [DatasevrBlock.ids, DatasevrRegBodyReq.key] using hp
    rw [if_pos ⟨_, List.mem_map_of_mem (getElem_mem hi), hids⟩]
    exact map_modify_frame (f := register req) key (fun _ => rfl) _ i
  | none =>
    rw [if_neg]
    · simp [keys, key, DatasevrRegBodyReq.key, DatasevrBlock.ids, register, ofRegister]
    · rintro ⟨k, hk, hids⟩
      obtain ⟨b, hb, rfl⟩ := List.mem_map.1 hk
      have hfalse := findIdx?_eq_none_iff.1 hidx b hb
      obtain ⟨hvid, hbid⟩ := Prod.mk.inj (hids : (b.parentVolumeId, b.blockId) = _)
      simp [hvid, hbid] at hfalse

lemma mem_ids_registrations {ids : UInt32 × UInt32} :
    (∃ k ∈ (registrations hashFunc t reqs).keys, k.1 = ids) ↔
      (∃ k ∈ t.keys, k.1 = ids) ∨ ∃ req ∈ reqs, (req.key hashFunc).1 = ids := by
  induction reqs generalizing t with
  | nil => simp [registrations]
  | cons req reqs ih =>
    have hstep : (∃ k ∈ (t.handleCmdRegister hashFunc req).keys, k.1 = ids) ↔
        (∃ k ∈ t.keys, k.1 = ids) ∨ (req.key hashFunc).1 = ids := by
      rw [keys_handleCmdRegister]
      split_ifs with hknown
      · refine ⟨.inl, fun hor => hor.elim id ?_⟩
        rintro rfl
        exact hknown
      · simp [or_and_right, exists_or]
    rw [registrations, foldl_cons, ← registrations, ih, hstep, or_assoc, exists_mem_cons_iff]

def firstIp (keys : List ((UInt32 × UInt32) × List Byte)) (vid : UInt32) : Option (List Byte) :=
  (keys.find? fun k => k.1.1 = vid).map Prod.snd

lemma firstIp_append (keys keys' : List ((UInt32 × UInt32) × List Byte)) :
    firstIp (keys ++ keys') vid = (firstIp keys vid).or (firstIp keys' vid) := by
  rw [firstIp, find?_append, Option.map_or, ← firstIp, ← firstIp]

/-- **The first block of a volume** is the one of the first request for the volume, and stays it. -/
lemma firstIp_registrations : firstIp (registrations hashFunc t reqs).keys vid =
      (firstIp t.keys vid).or (firstIp (reqs.map (DatasevrRegBodyReq.key hashFunc)) vid) := by
  induction reqs generalizing t with
  | nil => simp [registrations, firstIp]
  | cons req reqs ih =>
    have hstep : firstIp (t.handleCmdRegister hashFunc req).keys vid =
        (firstIp t.keys vid).or (firstIp [req.key hashFunc] vid) := by
      rw [keys_handleCmdRegister]
      split_ifs with hknown
      · -- the volume of a known block has a first block
        obtain ⟨k, hk, hids⟩ := hknown
        by_cases hvid : (req.key hashFunc).1.1 = vid
        · have hsome : (firstIp t.keys vid).isSome := by
            rw [firstIp, Option.isSome_map, find?_isSome]
            exact ⟨k, hk, by rw [hids]; exact decide_eq_true hvid⟩
          rw [Option.or_of_isSome hsome]
        · have hnone : firstIp [req.key hashFunc] vid = none := by simp [firstIp, hvid]
          rw [hnone, Option.or_none]
      · exact firstIp_append ..
    have hcons : _ = (firstIp [req.key hashFunc] vid).or _ :=
      firstIp_append _ (reqs.map (DatasevrRegBodyReq.key hashFunc))
    rw [registrations, foldl_cons, ← registrations, ih, hstep, Option.or_assoc, ← hcons]
    rfl

end Clusters

/-! ### The master of a tracker -/

namespace DatasevrCluster

variable {c : DatasevrCluster} {x y : List Byte}

/-- **The master** is the first block of the volume that has been registered. -/
lemma Registered.datasevrmasterblockGet_eq (h : c.Registered t.blocks) :
    c.datasevrmasterblockGet hashFunc mapInfo =
      some (t.blocks.find? fun b => b.parentVolumeId = hashFunc mapInfo) := by
  rw [datasevrmasterblockGet, h.doClusterFind_eq, Option.map_some]
  congr 1
  split_ifs with hvid
  · rw [Option.bind_some, if_pos (by simp [volumeOf]), ← head?_filter, head?_eq_getElem?]
    rfl
  · symm
    refine find?_eq_none.2 fun b hb hid => hvid ⟨b, hb, of_decide_eq_true hid⟩

lemma Registered.masterIp_eq (h : c.Registered t.blocks) (hashFunc : List Byte → UInt32)
    (mapInfo : List Byte) :
    c.masterIp hashFunc mapInfo = some (firstIp t.keys (hashFunc mapInfo)) := by
  rw [masterIp, h.datasevrmasterblockGet_eq, Option.map_some, firstIp, Clusters.keys,
    find?_map, Option.map_map]
  rfl

lemma Registered.syncsFrom_iff (h : c.Registered t.blocks) : c.SyncsFrom hashFunc mapInfo x y ↔
      (∃ k ∈ t.keys, k.1 = (hashFunc mapInfo, hashFunc x)) ∧
        firstIp t.keys (hashFunc mapInfo) = some y ∧ y ≠ x := by
  have hknown : (∃ k ∈ t.keys, k.1 = (hashFunc mapInfo, hashFunc x)) ↔
      (t.blocks.find? fun b => b.ids = (hashFunc mapInfo, hashFunc x)).isSome := by
    simp [Clusters.keys, key]
  have hmaster := h.masterIp_eq hashFunc mapInfo
  rw [masterIp, h.datasevrmasterblockGet_eq, Option.map_some, Option.some.injEq] at hmaster
  rw [SyncsFrom, DatasevrCluster.handleCmdFullsyncreq, h.datasevrblockByidFind_eq, h.datasevrmasterblockGet_eq,
    hknown, ← hmaster, ← and_assoc]
  refine and_congr_left fun _ => ?_
  cases t.blocks.find? fun b => b.ids = (hashFunc mapInfo, hashFunc x) with
  | none => simp
  | some b =>
    cases t.blocks.find? fun b => b.parentVolumeId = hashFunc mapInfo with
    | none | some master => simp

end DatasevrCluster

/-! ### Several trackers -/

namespace TrackersRun

variable {ι : Type} [DecidableEq ι]

/-- The trackers after the requests and the other steps of each of them, in the order of the list. -/
def trackers (hashFunc : List Byte → UInt32) (ops : List (ι × RegisterOp)) :
    ι → Option DatasevrCluster :=
  run (componentStep (RegisterOp.step hashFunc)) (fun _ => some .clusterInit) ops

/-- At each tracker a server is registered while its table is not being expanded. -/
def Enabled (hashFunc : List Byte → UInt32) (ops : List (ι × RegisterOp)) : Prop :=
  Along (componentStep (RegisterOp.step hashFunc)) (fun s op _ => RegisterOp.Enabled (s op.1) op.2)
    (fun _ => some .clusterInit) ops

instance (hashFunc : List Byte → UInt32) (ops : List (ι × RegisterOp)) :
    Decidable (Enabled hashFunc ops) :=
  inferInstanceAs (Decidable (Along (componentStep (RegisterOp.step hashFunc))
    (fun s op _ => RegisterOp.Enabled (s op.1) op.2) _ ops))

/-- The requests that the tracker `i` has received. -/
def requests (ops : List (ι × RegisterOp)) (i : ι) : List DatasevrRegBodyReq :=
  (actionsOf i ops).filterMap RegisterOp.request

/-- Every server that has registered has done so at every tracker. -/
def Everywhere (ops : List (ι × RegisterOp)) : Prop :=
  ∀ i j, ∀ req ∈ requests ops i, ∃ req' ∈ requests ops j,
    req'.mapInfo = req.mapInfo ∧ req'.dsIpaddr = req.dsIpaddr

/-- The trackers have the same master, if any. -/
def Agree (hashFunc : List Byte → UInt32) (mapInfo : List Byte) (s : ι → Option DatasevrCluster) :
    Prop :=
  ∃ ip, ∀ i, (s i).bind (DatasevrCluster.masterIp hashFunc mapInfo) = some ip

/-- Two servers are each told to copy from the other. -/
def Mutual (hashFunc : List Byte → UInt32) (mapInfo : List Byte) (s : ι → Option DatasevrCluster) :
    Prop :=
  ∃ x y i j, (∃ c ∈ s i, c.SyncsFrom hashFunc mapInfo x y) ∧
    ∃ c ∈ s j, c.SyncsFrom hashFunc mapInfo y x

/-- The server of the first request for the volume. -/
def firstServer (hashFunc : List Byte → UInt32) (mapInfo : List Byte)
    (reqs : List DatasevrRegBodyReq) : Option (List Byte) :=
  (reqs.find? fun req => hashFunc req.mapInfo = hashFunc mapInfo).map DatasevrRegBodyReq.dsIpaddr

/-- The first request for the volume comes from the same server at every tracker. -/
def SameFirst (hashFunc : List Byte → UInt32) (mapInfo : List Byte) (ops : List (ι × RegisterOp)) :
    Prop :=
  ∃ ip, ∀ i, firstServer hashFunc mapInfo (requests ops i) = ip

variable {ops : List (ι × RegisterOp)}

lemma firstServer_eq (reqs : List DatasevrRegBodyReq) :
    firstIp (reqs.map (DatasevrRegBodyReq.key hashFunc)) (hashFunc mapInfo) =
      firstServer hashFunc mapInfo reqs := by
  rw [firstIp, firstServer, find?_map, Option.map_map]
  rfl

lemma registered_trackers (henabled : Enabled hashFunc ops) (i : ι) :
    ∃ c, trackers hashFunc ops i = some c ∧
      c.Registered (registrations hashFunc .start (requests ops i)).blocks := by
  rw [trackers, run_componentStep]
  exact DatasevrCluster.Registered.run (t := .start) DatasevrCluster.registered_clusterInit _
    (Along.component (R := fun c op _ => RegisterOp.Enabled c op) henabled i)

lemma firstIp_requests (i : ι) :
    firstIp (registrations hashFunc .start (requests ops i)).keys (hashFunc mapInfo) =
      firstServer hashFunc mapInfo (requests ops i) := by
  rw [firstIp_registrations, firstServer_eq]
  rfl

lemma masterIp_trackers (henabled : Enabled hashFunc ops) (i : ι) :
    (trackers hashFunc ops i).bind (DatasevrCluster.masterIp hashFunc mapInfo) =
      some (firstServer hashFunc mapInfo (requests ops i)) := by
  obtain ⟨c, hc, hreg⟩ := registered_trackers henabled i
  rw [hc, Option.bind_some, hreg.masterIp_eq, firstIp_requests]

/-- A server that has registered anywhere is told by every tracker to copy from its master. -/
lemma syncsFrom_trackers (henabled : Enabled hashFunc ops) (heverywhere : Everywhere ops) {i j : ι}
    {x y : List Byte} (hx : firstServer hashFunc mapInfo (requests ops i) = some x)
    (hy : firstServer hashFunc mapInfo (requests ops j) = some y) (hne : y ≠ x) :
    ∃ c ∈ trackers hashFunc ops j, c.SyncsFrom hashFunc mapInfo x y := by
  obtain ⟨c, hc, hreg⟩ := registered_trackers henabled j
  refine ⟨c, hc, hreg.syncsFrom_iff.2 ⟨?_, (firstIp_requests j).trans hy, hne⟩⟩
  obtain ⟨req, hfind, rfl⟩ := Option.map_eq_some_iff.1 hx
  obtain ⟨req', hreq', hmap, hip⟩ := heverywhere i j req (mem_of_find?_eq_some hfind)
  have hvid : hashFunc req.mapInfo = hashFunc mapInfo := by simpa using find?_some hfind
  refine mem_ids_registrations.2 (.inr ⟨req', hreq', ?_⟩)
  rw [DatasevrRegBodyReq.key, hmap, hip, hvid]

lemma firstServer_eq_none (heverywhere : Everywhere ops) {i : ι}
    (hi : firstServer hashFunc mapInfo (requests ops i) = none) (j : ι) :
    firstServer hashFunc mapInfo (requests ops j) = none := by
  rw [firstServer, Option.map_eq_none_iff, find?_eq_none] at hi ⊢
  intro req hreq hvid
  obtain ⟨req', hreq', hmap, -⟩ := heverywhere j i req hreq
  refine hi req' hreq' ?_
  rw [hmap]
  exact hvid

/-- **Agreement of the trackers.**  When every server is registered everywhere, the trackers have the
same master exactly if the first server of the volume was the same at each of them; and exactly then
no two servers are each told to copy from the other. -/
theorem masters_agree_iff (hashFunc : List Byte → UInt32) (mapInfo : List Byte)
    (ops : List (ι × RegisterOp)) (henabled : Enabled hashFunc ops) (heverywhere : Everywhere ops) :
    (Agree hashFunc mapInfo (trackers hashFunc ops) ↔ SameFirst hashFunc mapInfo ops) ∧
    (¬ Mutual hashFunc mapInfo (trackers hashFunc ops) ↔ SameFirst hashFunc mapInfo ops) := by
  constructor
  · simp only [Agree, masterIp_trackers henabled, Option.some.injEq, SameFirst]
  · constructor
    · intro hnot
      -- two first servers that differ are told to copy from each other
      by_cases hempty : ∀ i, firstServer hashFunc mapInfo (requests ops i) = none
      · exact ⟨none, hempty⟩
      obtain ⟨i, hi⟩ := not_forall.1 hempty
      obtain ⟨x, hx⟩ := Option.ne_none_iff_exists'.1 hi
      refine ⟨some x, fun j => ?_⟩
      cases hy : firstServer hashFunc mapInfo (requests ops j) with
      | none => exact absurd (firstServer_eq_none heverywhere hy i) hi
      | some y =>
        by_contra hne
        have hne : y ≠ x := fun heq => hne (congrArg some heq)
        exact hnot ⟨x, y, j, i, syncsFrom_trackers henabled heverywhere hx hy hne,
          syncsFrom_trackers henabled heverywhere hy hx hne.symm⟩
    · rintro ⟨ip, hfirst⟩ ⟨x, y, i, j, ⟨c, hc, hxy⟩, c', hc', hyx⟩
      have hmaster {k : ι} {c : DatasevrCluster} {x y : List Byte}
          (hc : c ∈ trackers hashFunc ops k) (hsync : c.SyncsFrom hashFunc mapInfo x y) :
          ip = some y := by
        obtain ⟨c', hc', hreg⟩ := registered_trackers henabled k
        obtain rfl : c' = c := Option.some.inj (hc'.symm.trans hc)
        rw [← hfirst k, ← firstIp_requests]
        exact (hreg.syncsFrom_iff.1 hsync).2.1
      have heq : y = x := Option.some.inj ((hmaster hc hxy).symm.trans (hmaster hc' hyx))
      exact hxy.2 heq

/-- A hash that tells names of one letter apart. -/
def firstByte (name : List Byte) : UInt32 := (name.headD 0).toUInt32

/-- A server of the volume `A` registers. -/
def joins (ip : Byte) : RegisterOp := .register ⟨[65], [ip], 80, 1, 30, 7, 8⟩

/-- Three servers register with two trackers, and one of them is the first at both. -/
def oneFirst : List (Bool × RegisterOp) :=
  [(true, joins 49), (true, joins 50), (false, joins 49), (false, joins 51), (true, joins 51),
    (false, joins 50)]

theorem masters_agree_oneFirst : Agree firstByte [65] (trackers firstByte oneFirst) ∧
    ¬ Mutual firstByte [65] (trackers firstByte oneFirst) := by
  have heverywhere : Everywhere oneFirst := by
    unfold Everywhere
    decide
  have hfirst : SameFirst firstByte [65] oneFirst := ⟨some [49], by decide⟩
  have hiff := masters_agree_iff firstByte [65] oneFirst (by decide +kernel) heverywhere
  exact ⟨hiff.1.2 hfirst, hiff.2.2 hfirst⟩

/-- Two servers register with two trackers, and each of them is the first at one. -/
def crossed : List (Bool × RegisterOp) :=
  [(true, joins 49), (false, joins 50), (true, joins 50), (false, joins 49)]

/-- The trackers have different masters, and the two servers are told to copy from each other. -/
theorem crossed_not_agree : Enabled firstByte crossed ∧ Everywhere crossed ∧
    ¬ Agree firstByte [65] (trackers firstByte crossed) ∧
    Mutual firstByte [65] (trackers firstByte crossed) := by
  have henabled : Enabled firstByte crossed := by decide +kernel
  have heverywhere : Everywhere crossed := by
    unfold Everywhere
    decide
  have htrue : firstServer firstByte [65] (requests crossed true) = some [49] := by decide
  have hfalse : firstServer firstByte [65] (requests crossed false) = some [50] := by decide
  refine ⟨henabled, heverywhere, ?_, [49], [50], false, true,
    syncsFrom_trackers henabled heverywhere htrue hfalse (by decide),
    syncsFrom_trackers henabled heverywhere hfalse htrue (by decide)⟩
  rintro ⟨ip, hagree⟩
  have hip (i : Bool) := (masterIp_trackers henabled i).symm.trans (hagree i)
  have heq := (hip true).trans (hip false).symm
  rw [htrue, hfalse] at heq
  exact absurd heq (by decide)

end TrackersRun

end Lfs.Tracker
