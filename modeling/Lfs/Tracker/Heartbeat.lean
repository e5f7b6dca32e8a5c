/-
The reply to a heartbeat (`handle_cmd_heartbeat` in `ts_service.c`), and how a dataserver reads it
(`__check_volumeblocks_change` and `__local_volume_blocks_manager` in `tracker_client.c`).

The reply has one `block_brief_info_resp` for each other server of the volume.  The loop that writes
them adds the size of a record to `body_len` and then `body_len` to the pointer, so that the third
record leaves a gap behind the second one, which the reader takes for a record.
-/
import Lfs.Base.Text
import Lfs.Lib.Buffer
import Lfs.Tracker.Service

namespace Lfs.Tracker

open Lfs.Lib List DatasevrBlock

/-- `sizeof(block_brief_info_resp)`. -/
def sizeofBrief : ℕ := 40

/-- The value of `enum datasevr_state`. -/
def DatasevrState.toInt : DatasevrState → ℤ
  | .init => 0
  | .waitSync => 1
  | .syncing => 2
  | .onLine => 3
  | .active => 4
  | .offLine => 5
  | .deleted => 6

/-- A `block_brief_info_resp` as it is read. -/
structure BlockBrief where
  state : ℤ
  dsIpaddr : List Byte
  dsPort : ℤ
  lastSyncSequence : ℤ
deriving DecidableEq

/-- What the reply is to say about a block. -/
def DatasevrBlock.brief (b : DatasevrBlock) : BlockBrief :=
  ⟨b.state.toInt, b.ipAddr, b.port, b.lastSyncSequence⟩

/-! ### The tracker -/

/-- The fields of a `block_brief_info_resp` at the address `p` are written.  The address of the
server is copied without its NUL. -/
def DatasevrBlock.writeBrief (b : DatasevrBlock) (p : ℕ) (wbuff : ℕ → Byte) : ℕ → Byte :=
  writeAt (p + 32) (long2buff b.lastSyncSequence) (writeAt (p + 24) (long2buff b.port)
    (writeAt (p + 8) b.ipAddr (writeAt p (long2buff b.state.toInt) wbuff)))

/-- The loop of `handle_cmd_heartbeat`: the write buffer behind the header, its variables `p` and
`body_len`, and the blocks that it has passed. -/
structure HeartbeatLoop where
  wbuff : ℕ → Byte
  p : ℕ
  bodyLen : ℕ
  blocks : List DatasevrBlock

namespace HeartbeatLoop

variable (heartBeatInterval lastHeartbeatTime : ℤ) (dsIpaddr : List Byte)

/-- The block of a server other than the sender, at the time `now`. -/
def peer (now : ℤ) (b : DatasevrBlock) : DatasevrBlock :=
  if heartBeatInterval < now - lastHeartbeatTime then b.setOffLine else b

/-- One round, at the time `now`. -/
def step (r : HeartbeatLoop) (now : ℤ) (b : DatasevrBlock) : HeartbeatLoop :=
  if dsIpaddr = b.ipAddr then { r with blocks := r.blocks ++ [b] }
  else
    let b := peer heartBeatInterval lastHeartbeatTime now b
    let bodyLen := r.bodyLen + sizeofBrief
    { wbuff := b.writeBrief r.p r.wbuff
      bodyLen := bodyLen
      p := r.p + bodyLen
      blocks := r.blocks ++ [b] }

/-- The rounds for the blocks of a volume with their indices.  The time is taken anew in each. -/
def rounds (now : ℕ → ℤ) (r : HeartbeatLoop) (bs : List (DatasevrBlock × ℕ)) : HeartbeatLoop :=
  bs.foldl (fun r bj => r.step heartBeatInterval lastHeartbeatTime dsIpaddr (now bj.2) bj.1) r

def body (r : HeartbeatLoop) : List Byte := readFront r.bodyLen r.wbuff

end HeartbeatLoop

/-- `handle_cmd_heartbeat` on the volume of the request, where the block `i` has been found for the
sender. -/
def DatasevrVolume.handleCmdHeartbeat (heartBeatInterval currentTime : ℤ) (now : ℕ → ℤ)
    (dsIpaddr : List Byte) (i : ℕ) (wbuff : ℕ → Byte) (dv : DatasevrVolume) : HeartbeatLoop :=
  let dv := dv.modifyBlock i (.heartbeat currentTime)
  if 1 < dv.blocks.length then
    HeartbeatLoop.rounds heartBeatInterval currentTime dsIpaddr now ⟨wbuff, 0, 0, []⟩
      dv.blocks.zipIdx
  else ⟨wbuff, 0, 0, dv.blocks⟩

/-! ### The dataserver -/

/-- The record number `k` as it is read.  The address ends at its NUL. -/
def briefAt (body : List Byte) (k : ℕ) : BlockBrief :=
  let bbirs := body.drop (k * sizeofBrief)
  { state := (buff2long bbirs).bmod (2 ^ 32)
    dsIpaddr := cstr (bbirs.drop 8)
    dsPort := (buff2long (bbirs.drop 24)).bmod (2 ^ 32)
    lastSyncSequence := buff2long (bbirs.drop 32) }

/-- The records that `__local_volume_blocks_manager` goes through, with
`bcount = resp_bytes / sizeof(block_brief_info_resp)`. -/
def volumeBlocks (body : List Byte) : List BlockBrief :=
  (range (body.length / sizeofBrief)).map (briefAt body)

/-! ### One record -/

namespace DatasevrBlock

variable {b : DatasevrBlock} {l t : List Byte}

/-- A block that can be sent: its address is one, and its numbers have the range of their C types. -/
structure OnWire (b : DatasevrBlock) : Prop where
  ip_ne_nil : b.ipAddr ≠ []
  ip_lt : b.ipAddr.length < ipAddressSize
  ip_noNul : (0 : Byte) ∉ b.ipAddr
  le_port : -2 ^ 31 ≤ b.port
  port_lt : b.port < 2 ^ 31
  le_sequence : -2 ^ 63 ≤ b.lastSyncSequence
  sequence_lt : b.lastSyncSequence < 2 ^ 63

instance (b : DatasevrBlock) : Decidable b.OnWire :=
  decidable_of_iff (b.ipAddr ≠ [] ∧ b.ipAddr.length < ipAddressSize ∧ (0 : Byte) ∉ b.ipAddr ∧
      -2 ^ 31 ≤ b.port ∧ b.port < 2 ^ 31 ∧ -2 ^ 63 ≤ b.lastSyncSequence ∧
      b.lastSyncSequence < 2 ^ 63)
    ⟨fun ⟨h1, h2, h3, h4, h5, h6, h7⟩ => ⟨h1, h2, h3, h4, h5, h6, h7⟩,
      fun h => ⟨h.1, h.2, h.3, h.4, h.5, h.6, h.7⟩⟩

/-- What a record holds of a block besides its state. -/
def wire (b : DatasevrBlock) : List Byte × ℤ × ℤ := (b.ipAddr, b.port, b.lastSyncSequence)

lemma OnWire.congr {b' : DatasevrBlock} (h : b.OnWire) (hwire : b'.wire = b.wire) : b'.OnWire := by
  simp only [wire, Prod.mk.injEq] at hwire
  obtain ⟨hip, hport, hsequence⟩ := hwire
  constructor
  · exact hip ▸ h.ip_ne_nil
  · exact hip ▸ h.ip_lt
  · exact hip ▸ h.ip_noNul
  · exact hport ▸ h.le_port
  · exact hport ▸ h.port_lt
  · exact hsequence ▸ h.le_sequence
  · exact hsequence ▸ h.sequence_lt

/-- The bytes of a record in a buffer of zeros. -/
def record (b : DatasevrBlock) : List Byte :=
  long2buff b.state.toInt ++ (b.ipAddr ++ replicate (ipAddressSize - b.ipAddr.length) 0 ++
    (long2buff b.port ++ long2buff b.lastSyncSequence))

lemma length_record (hip : b.ipAddr.length ≤ ipAddressSize) : b.record.length = sizeofBrief := by
  simp only [record, length_append, length_long2buff, length_replicate]
  rw [ipAddressSize] at hip ⊢
  rw [sizeofBrief]
  omega

lemma writeBrief_filled (hip : b.ipAddr.length ≤ ipAddressSize) :
    b.writeBrief l.length (filled 0 l) = filled 0 (l ++ b.record) := by
  rw [ipAddressSize] at hip
  have hstate : writeAt l.length (long2buff b.state.toInt) (filled 0 l) =
      filled 0 (l ++ long2buff b.state.toInt) := writeAt_filled_end rfl
  have hip' : writeAt (l.length + 8) b.ipAddr (filled 0 (l ++ long2buff b.state.toInt)) =
      filled 0 (l ++ long2buff b.state.toInt ++ b.ipAddr) :=
    writeAt_filled_end (by simp [length_long2buff])
  -- the rest of the address stays zero
  have hgap : l.length + 24 - (l ++ long2buff b.state.toInt ++ b.ipAddr).length =
      ipAddressSize - b.ipAddr.length := by
    simp only [length_append, length_long2buff, ipAddressSize]
    omega
  have hport : writeAt (l.length + 24) (long2buff b.port)
      (filled 0 (l ++ long2buff b.state.toInt ++ b.ipAddr)) = _ :=
    writeAt_filled (by simp only [length_append, length_long2buff]; omega)
  rw [hgap] at hport
  rw [writeBrief, hstate, hip', hport, writeAt_filled_end, record]
  · simp only [append_assoc]
  · simp only [length_append, length_long2buff, length_replicate, ipAddressSize]
    omega

lemma state_mem (s : DatasevrState) : 0 ≤ s.toInt ∧ s.toInt < 7 := by
  cases s <;> decide

/-- **One record** is read as it was written. -/
lemma OnWire.briefAt_eq (h : b.OnWire) {k : ℕ} (hk : l.length = k * sizeofBrief) :
    briefAt (l ++ (b.record ++ t)) k = b.brief := by
  have hip := h.ip_lt
  rw [ipAddressSize] at hip
  have hbody : (l ++ (b.record ++ t)).drop (k * sizeofBrief) = b.record ++ t :=
    drop_left' hk
  have hstate := state_mem b.state
  have hle := h.le_port
  have hlt := h.port_lt
  have h8 : (b.record ++ t).drop 8 = b.ipAddr ++ (replicate (16 - b.ipAddr.length) 0 ++
      (long2buff b.port ++ (long2buff b.lastSyncSequence ++ t))) := by
    simp only [record, append_assoc, ipAddressSize]
    exact drop_left' (length_long2buff _)
  have h24 : (b.record ++ t).drop 24 = long2buff b.port ++ (long2buff b.lastSyncSequence ++ t) := by
    rw [← drop_drop (i := 16) (j := 8), h8, ← append_assoc]
    exact drop_left' (by simp; omega)
  have h32 : (b.record ++ t).drop 32 = long2buff b.lastSyncSequence ++ t := by
    rw [← drop_drop (i := 8) (j := 24), h24]
    exact drop_left' (length_long2buff _)
  have hstate' : (buff2long (b.record ++ t)).bmod (2 ^ 32) = b.state.toInt := by
    have hlong : buff2long (b.record ++ t) = b.state.toInt := by
      rw [record, append_assoc]
      exact buff2long_long2buff_append (by omega) (by omega) _
    rw [hlong]
    exact Int.bmod_eq_of_le_mul_two (by omega) (by omega)
  have hport : (buff2long ((b.record ++ t).drop 24)).bmod (2 ^ 32) = b.port := by
    rw [h24, buff2long_long2buff_append (by omega) (by omega)]
    exact Int.bmod_eq_of_le_mul_two (by omega) (by omega)
  have hsequence : buff2long ((b.record ++ t).drop 32) = b.lastSyncSequence := by
    rw [h32]
    exact buff2long_long2buff_append h.le_sequence h.sequence_lt t
  have hcstr : cstr ((b.record ++ t).drop 8) = b.ipAddr := by
    rw [h8]
    refine cstr_append h.ip_noNul fun c hc => ?_
    rw [head?_append_of_ne_nil _ (by simp; omega)] at hc
    exact eq_of_mem_replicate (mem_of_head? hc)
  simp only [briefAt, hbody, hstate', hcstr, hport, hsequence]
  rfl

end DatasevrBlock

/-! ### The loop -/

/-- The records of the blocks, the one number `k` with `k` gaps of its size behind it. -/
def layout : ℕ → List DatasevrBlock → List Byte
  | _, [] => []
  | k, b :: bs => b.record ++ replicate (k * sizeofBrief) 0 ++ layout (k + 1) bs

lemma le_length_layout {bs : List DatasevrBlock} (k : ℕ)
    (hbs : ∀ b ∈ bs, b.ipAddr.length ≤ ipAddressSize) :
    bs.length * sizeofBrief ≤ (layout k bs).length := by
  induction bs generalizing k with
  | nil => simp
  | cons b bs ih =>
    have hrecord := length_record (hbs b mem_cons_self)
    have hrest := ih (k + 1) fun b' hb' => hbs b' (mem_cons_of_mem b hb')
    rw [layout, length_append, length_append, hrecord, length_cons, Nat.succ_mul]
    omega

/-- The blocks of the servers other than `dsIpaddr`. -/
def peers (dsIpaddr : List Byte) (blocks : List DatasevrBlock) : List DatasevrBlock :=
  blocks.filter fun b => b.ipAddr ≠ dsIpaddr

namespace HeartbeatLoop

variable {heartBeatInterval lastHeartbeatTime : ℤ} {dsIpaddr : List Byte} {now : ℕ → ℤ}

/-- A block after the loop has passed it. -/
def after (heartBeatInterval lastHeartbeatTime : ℤ) (dsIpaddr : List Byte) (now : ℕ → ℤ)
    (bj : DatasevrBlock × ℕ) : DatasevrBlock :=
  if dsIpaddr = bj.1.ipAddr then bj.1
  else peer heartBeatInterval lastHeartbeatTime (now bj.2) bj.1

lemma wire_peer (t : ℤ) (b : DatasevrBlock) :
    (peer heartBeatInterval lastHeartbeatTime t b).wire = b.wire := by
  rw [peer]
  split_ifs <;> rfl

lemma wire_after (bj : DatasevrBlock × ℕ) :
    (after heartBeatInterval lastHeartbeatTime dsIpaddr now bj).wire = bj.1.wire := by
  rw [after]
  split_ifs
  · rfl
  · exact wire_peer ..

lemma peers_cons_after {bj : DatasevrBlock × ℕ} (hne : dsIpaddr ≠ bj.1.ipAddr)
    (bs : List DatasevrBlock) :
    peers dsIpaddr (after heartBeatInterval lastHeartbeatTime dsIpaddr now bj :: bs) =
      peer heartBeatInterval lastHeartbeatTime (now bj.2) bj.1 :: peers dsIpaddr bs := by
  have hip : (peer heartBeatInterval lastHeartbeatTime (now bj.2) bj.1).ipAddr = bj.1.ipAddr :=
    congrArg Prod.fst (wire_peer _ _)
  rw [after, if_neg hne]
  exact filter_cons_of_pos (by simpa [hip] using hne.symm)

/-- **The loop** writes the records of the other servers, with growing gaps between them. -/
lemma rounds_eq {bs : List (DatasevrBlock × ℕ)} (l : List Byte) (k : ℕ)
    (passed : List DatasevrBlock) (hbs : ∀ bj ∈ bs, bj.1.ipAddr.length ≤ ipAddressSize)
    {blocks ps : List DatasevrBlock}
    (hblocks : blocks = bs.map (after heartBeatInterval lastHeartbeatTime dsIpaddr now))
    (hps : ps = peers dsIpaddr blocks) :
    rounds heartBeatInterval lastHeartbeatTime dsIpaddr now
        ⟨filled 0 l, l.length, k * sizeofBrief, passed⟩ bs =
      ⟨filled 0 (l ++ layout k ps), (l ++ layout k ps).length, (k + ps.length) * sizeofBrief,
        passed ++ blocks⟩ := by
  subst hblocks hps
  induction bs generalizing l k passed with
  | nil => simp [rounds, layout, peers]
  | cons bj bs ih =>
    have hip := hbs bj mem_cons_self
    have hrest := fun l k passed => ih l k passed fun bj hbj => hbs bj (mem_cons_of_mem _ hbj)
    rw [rounds, foldl_cons, step, ← rounds]
    by_cases hds : dsIpaddr = bj.1.ipAddr
    · -- the sender itself
      rw [if_pos hds, hrest]
      simp [after, hds, peers]
    · rw [if_neg hds]
      set b := peer heartBeatInterval lastHeartbeatTime (now bj.2) bj.1 with hb
      have hbj : b.ipAddr = bj.1.ipAddr := congrArg Prod.fst (wire_peer _ _)
      have hbip : b.ipAddr.length ≤ ipAddressSize := (congrArg List.length hbj).trans_le hip
      have hwbuff : b.writeBrief l.length (filled 0 l) =
          filled 0 (l ++ b.record ++ replicate (k * sizeofBrief) 0) := by
        rw [writeBrief_filled hbip, filled_append_replicate]
      have hp : l.length + (k * sizeofBrief + sizeofBrief) =
          (l ++ b.record ++ replicate (k * sizeofBrief) 0).length := by
        rw [length_append, length_append, length_replicate, length_record hbip]
        omega
      dsimp only
      rw [hwbuff, hp, ← Nat.succ_mul, hrest]
      have hafter : after heartBeatInterval lastHeartbeatTime dsIpaddr now bj = b := if_neg hds
      rw [map_cons, peers_cons_after hds, hafter, ← hb, layout, length_cons]
      simp only [append_assoc, singleton_append, mk.injEq, true_and, and_true]
      rw [Nat.succ_add_eq_add_succ]

end HeartbeatLoop

/-! ### The reply -/

namespace DatasevrVolume

variable {dv : DatasevrVolume} {dsIpaddr : List Byte} {i : ℕ} {ps : List DatasevrBlock}

/-- A volume that sends a reply to its member `i`: the servers have different addresses. -/
structure Replies (dv : DatasevrVolume) (dsIpaddr : List Byte) (i : ℕ) : Prop where
  two_le : 2 ≤ dv.blocks.length
  distinct : (dv.blocks.map ipAddr).Nodup
  onWire : ∀ b ∈ dv.blocks, b.OnWire
  sender : dv.blocks[i]?.map ipAddr = some dsIpaddr

lemma Replies.length_peers (h : dv.Replies dsIpaddr i) {blocks : List DatasevrBlock}
    (hwire : blocks.map wire = dv.blocks.map wire) :
    (peers dsIpaddr blocks).length + 1 = dv.blocks.length := by
  have hips : blocks.map ipAddr = dv.blocks.map ipAddr := by
    have hfst := congrArg (List.map Prod.fst) hwire
    rwa [List.map_map, List.map_map] at hfst
  have hmem : dsIpaddr ∈ dv.blocks.map ipAddr := by
    obtain ⟨b, hb, rfl⟩ := Option.map_eq_some_iff.1 h.sender
    exact mem_map_of_mem (mem_of_getElem? hb)
  have hfilter : (peers dsIpaddr blocks).map ipAddr = (dv.blocks.map ipAddr).erase dsIpaddr := by
    rw [h.distinct.erase_eq_filter, ← hips, filter_map, peers]
    congr 1
    exact filter_congr fun b _ => by grind
  have hlen := congrArg List.length hfilter
  rw [length_map, length_erase_of_mem hmem, length_map] at hlen
  have htwo := h.two_le
  omega

/-- **The reply** to a heartbeat in a buffer of zeros. -/
lemma Replies.handleCmdHeartbeat_eq (h : dv.Replies dsIpaddr i) {heartBeatInterval currentTime : ℤ}
    {now : ℕ → ℤ} {r : HeartbeatLoop}
    (hr : r = dv.handleCmdHeartbeat heartBeatInterval currentTime now dsIpaddr i fun _ => 0) :
    r.wbuff = filled 0 (layout 0 (peers dsIpaddr r.blocks)) ∧
      r.bodyLen = (peers dsIpaddr r.blocks).length * sizeofBrief ∧
      r.blocks.map wire = dv.blocks.map wire := by
  set bs := (dv.modifyBlock i (.heartbeat currentTime)).blocks with hbs
  have hwire : bs.map wire = dv.blocks.map wire :=
    map_modify_frame (f := heartbeat currentTime) wire (fun _ => rfl) _ i
  have hlen : bs.length = dv.blocks.length := length_modify ..
  have htwo := h.two_le
  have hip : ∀ bj ∈ bs.zipIdx, bj.1.ipAddr.length ≤ ipAddressSize := by
    intro bj hbj
    have hmem : bj.1.wire ∈ dv.blocks.map wire := by
      rw [← hwire]
      exact mem_map_of_mem (fst_mem_of_mem_zipIdx hbj)
    obtain ⟨b, hb, heq⟩ := mem_map.1 hmem
    have hipb : b.ipAddr = bj.1.ipAddr := congrArg Prod.fst heq
    rw [← hipb]
    exact (h.onWire b hb).ip_lt.le
  have hzero : (fun _ => 0 : ℕ → Byte) = filled 0 [] := by
    funext a
    simp [filled]
  set blocks := bs.zipIdx.map (HeartbeatLoop.after heartBeatInterval currentTime dsIpaddr now)
    with hblocks
  have hrounds := HeartbeatLoop.rounds_eq [] 0 [] hip hblocks rfl
  simp only [nil_append, zero_mul, zero_add, length_nil] at hrounds
  rw [handleCmdHeartbeat, ← hbs, if_pos (by omega), hzero, hrounds] at hr
  subst hr
  refine ⟨rfl, rfl, ?_⟩
  have hcomp : wire ∘
      HeartbeatLoop.after heartBeatInterval currentTime dsIpaddr now = wire ∘ Prod.fst :=
    funext HeartbeatLoop.wire_after
  rw [hblocks, List.map_map, hcomp, ← List.map_map, zipIdx_map_fst, hwire]

lemma length_records (hps : ∀ b ∈ ps, b.OnWire) :
    (ps.map record).flatten.length = ps.length * sizeofBrief := by
  induction ps with
  | nil => simp
  | cons b ps ih =>
    have hb := length_record (hps b mem_cons_self).ip_lt.le
    have hrest := ih fun b' hb' => hps b' (mem_cons_of_mem b hb')
    rw [map_cons, flatten_cons, length_append, length_cons, Nat.succ_mul, hrest, hb, add_comm]

lemma volumeBlocks_records (hps : ∀ b ∈ ps, b.OnWire) :
    volumeBlocks (ps.map record).flatten = ps.map brief := by
  have hcount : (ps.map record).flatten.length / sizeofBrief = ps.length := by
    rw [length_records hps, Nat.mul_div_cancel _ (by decide)]
  have hlength : (volumeBlocks (ps.map record).flatten).length = (ps.map brief).length := by
    rw [volumeBlocks, length_map, length_range, hcount, length_map]
  refine ext_getElem hlength fun k _ hk => ?_
  rw [length_map] at hk
  have hsplit : ps = ps.take k ++ ps[k] :: ps.drop (k + 1) := by simp
  have htake : ((ps.take k).map record).flatten.length = k * sizeofBrief := by
    rw [length_records fun b hb => hps b (mem_of_mem_take hb), length_take, min_eq_left hk.le]
  have hflatten : (ps.map record).flatten = ((ps.take k).map record).flatten ++
        (ps[k].record ++ ((ps.drop (k + 1)).map record).flatten) := by
    rw [← flatten_cons, ← map_cons, ← flatten_append, ← map_append, ← hsplit]
  simp only [volumeBlocks, getElem_map, getElem_range]
  rw [hflatten]
  exact (hps _ (getElem_mem hk)).briefAt_eq htake

/-- In the third place there is a gap: the address that is read there is empty. -/
lemma dsIpaddr_briefAt_two {b b' : DatasevrBlock} (hb : b.OnWire)
    (hb' : b'.OnWire) (n : ℕ) : (briefAt ((layout 0 (b :: b' :: ps)).take n) 2).dsIpaddr = [] := by
  have hlength : (b.record ++ b'.record).length = 2 * sizeofBrief := by
    rw [length_append, length_record hb.ip_lt.le, length_record hb'.ip_lt.le, two_mul]
  have hlayout : layout 0 (b :: b' :: ps) =
      (b.record ++ b'.record) ++ (replicate sizeofBrief 0 ++ layout 2 ps) := by
    simp [layout]
  have hdrop : (replicate sizeofBrief 0 ++ layout 2 ps).drop 8 =
      0 :: (replicate 31 0 ++ layout 2 ps) := rfl
  rw [hlayout, briefAt]
  dsimp only
  rw [drop_take, drop_left' hlength, drop_take, hdrop]
  cases n - 2 * sizeofBrief - 8 with
  | zero | succ n => rfl

lemma take_layout (hps : ∀ b ∈ ps, b.OnWire) (hle : ps.length ≤ 2) :
    (layout 0 ps).take (ps.length * sizeofBrief) = (ps.map record).flatten := by
  rw [← length_records hps]
  rcases ps with _ | ⟨b, _ | ⟨b', _ | ⟨b'', ps⟩⟩⟩
  · rfl
  · have hlayout : layout 0 [b] = ([b].map record).flatten ++ [] := by simp [layout]
    rw [hlayout, take_left]
  · have hlayout : layout 0 [b, b'] = ([b, b'].map record).flatten ++
        replicate sizeofBrief 0 := by simp [layout]
    rw [hlayout, take_left]
  · exact absurd hle (by simp)

/-- **The reply to a heartbeat** is read as the other servers of the volume, with their state, address,
port and sequence, exactly if the volume has at most three servers. -/
theorem heartbeat_reply_iff (h : dv.Replies dsIpaddr i) (heartBeatInterval currentTime : ℤ)
    (now : ℕ → ℤ) :
    let r := dv.handleCmdHeartbeat heartBeatInterval currentTime now dsIpaddr i fun _ => 0
    volumeBlocks r.body = (peers dsIpaddr r.blocks).map brief ↔ dv.blocks.length ≤ 3 := by
  intro r
  obtain ⟨hwbuff, hlen, hwire⟩ : _ ∧ _ ∧ r.blocks.map wire = _ :=
    h.handleCmdHeartbeat_eq rfl
  have hcount := h.length_peers hwire
  have hps : ∀ b ∈ peers dsIpaddr r.blocks, b.OnWire := by
    intro b hb
    have hmem : b.wire ∈ dv.blocks.map wire := by
      rw [← hwire]
      exact mem_map_of_mem (mem_of_mem_filter hb)
    obtain ⟨b', hb', heq⟩ := mem_map.1 hmem
    exact (h.onWire b' hb').congr heq.symm
  have hbody : r.body = (layout 0 (peers dsIpaddr r.blocks)).take
      ((peers dsIpaddr r.blocks).length * sizeofBrief) := by
    rw [HeartbeatLoop.body, hwbuff, hlen,
      readFront_filled (le_length_layout 0 fun b hb => (hps b hb).ip_lt.le)]
  rw [hbody, ← hcount]
  generalize peers dsIpaddr r.blocks = ps at hps
  constructor
  · intro hread
    by_contra hlt
    -- the third of the other servers has an address, and what is read in its place has none
    obtain ⟨b, b', b'', rest, rfl⟩ : ∃ b b' b'' rest, ps = b :: b' :: b'' :: rest := by
      rcases ps with _ | ⟨b, _ | ⟨b', _ | ⟨b'', rest⟩⟩⟩
      · exact absurd (by decide) hlt
      · exact absurd (by simp) hlt
      · exact absurd (by simp) hlt
      · exact ⟨b, b', b'', rest, rfl⟩
    set body := (layout 0 (b :: b' :: b'' :: rest)).take
      ((b :: b' :: b'' :: rest).length * sizeofBrief) with hbody'
    have hempty : (briefAt body 2).dsIpaddr = [] :=
      dsIpaddr_briefAt_two (hps b (by simp)) (hps b' (by simp)) _
    have hthird : (volumeBlocks body)[2]? = some b''.brief := by rw [hread]; rfl
    obtain ⟨_, heq⟩ := List.getElem?_eq_some_iff.1 hthird
    simp only [volumeBlocks, getElem_map, getElem_range] at heq
    rw [heq] at hempty
    exact (hps b'' (by simp)).ip_ne_nil hempty
  · intro hle
    rw [take_layout hps (by omega), volumeBlocks_records hps]

/-- A volume of active servers with addresses of one letter. -/
def activeServers (ips : List Byte) : DatasevrVolume where
  volumeId := 1
  blocks := ips.map fun ip => { blockNew with ipAddr := [ip], port := 80, state := .active }
  masterBlockIndex := 0
  lastReadBlockIndex := 0

/-- Three servers, the second of which sends a heartbeat. -/
theorem heartbeat_reply_three :
    let r := (activeServers [49, 50, 51]).handleCmdHeartbeat 30 7 (fun _ => 7) [50] 1 fun _ => 0
    volumeBlocks r.body = (peers [50] r.blocks).map brief :=
  have hreplies : (activeServers [49, 50, 51]).Replies [50] 1 :=
    ⟨by decide, by decide, by decide, by decide⟩
  (heartbeat_reply_iff hreplies 30 7 fun _ => 7).2 (by decide)

/-- Four servers, the second of which sends a heartbeat: the last one is read as a record of zeros. -/
theorem heartbeat_reply_four_not_read : (activeServers [49, 50, 51, 52]).Replies [50] 1 ∧
    let r := (activeServers [49, 50, 51, 52]).handleCmdHeartbeat 30 7 (fun _ => 7) [50] 1 fun _ => 0
    volumeBlocks r.body = [⟨4, [49], 80, 0⟩, ⟨4, [51], 80, 0⟩, ⟨0, [], 0, 0⟩] ∧
    volumeBlocks r.body ≠ (peers [50] r.blocks).map brief :=
  ⟨⟨by decide, by decide, by decide, by decide⟩, by decide +kernel, by decide +kernel⟩

end DatasevrVolume

end Lfs.Tracker
