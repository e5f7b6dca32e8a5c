/-
The registration of a dataserver with its trackers.

A thread of `__trackerclient_state_machine` registers the server with its tracker, asks it
for the master of the volume, and then reports.  What it has done it remembers in
`is_local_haseregistered` and `is_local_hasefullsync`, which outlive the connection; the
tracker keeps the registration in memory.  When the tracker is restarted without it, the
thread does not register again, and reports as a server that the tracker does not know.
-/
import Lfs.Server.Reporting
import Lfs.Tracker.Master

namespace Lfs.Server

open Lfs.FullSync Lfs.Lib Lfs.Tracker Function DatasevrBlock

/-! ### Requests and replies -/

inductive Exchange where
  | sendFailed
  /-- The request arrives, and the reply does not, or cannot be read. -/
  | replyLost
  | answered
deriving DecidableEq

/-- What a thread does next, with its requests to the tracker. -/
inductive LinkOp where
  | connect (o : ConnectOutcome)
  | register (x : Exchange) (regTime : Int64)
  /-- `lock` says that `pthread_mutex_lock` succeeds. -/
  | fullsync (lock : Bool) (x : Exchange)
  /-- A round of the state `reporting`, with those of the three reports that are due. -/
  | report (hearbeat syncinfo blockstate : Option Exchange)
      (lastSyncSequence conns totalMb freeMb : ℤ) (draws : ℕ)
  | close
  | fullSyncConnect (o : ConnectOutcome)
  | fullSyncNoblockFailed
  | fullSyncBinlogs (fstate : FullSyncState) (files flushed : Bool)
  | fullSyncData (fstate : FullSyncState) (flushed : Bool)
deriving DecidableEq

/-- A request that is made fails if it is not answered, or if the reply is that the server is
not registered. -/
def Exchange.fails (held : Bool) : Option Exchange → Bool
  | none => false
  | some x => !(decide (x = .answered) && held)

/-- What a request that is made does to the tracker. -/
def Exchange.arrive (handler : Clusters → Clusters) : Option Exchange → Clusters → Clusters
  | none, t | some .sendFailed, t => t
  | some .replyLost, t | some .answered, t => handler t

section Link

variable (hashFunc : List Byte → UInt32) (heartBeatInterval : ℤ) (conf : DatasevrRegBodyReq)

/-- The tracker holds the registration of this server. -/
def holds (t : Clusters) : Bool :=
  (t.datasevrblockFind hashFunc conf.mapInfo conf.dsIpaddr).isSome

namespace LinkOp

/-- How `__tracker_fullsync_req` goes. -/
def fullsyncReq (t : Clusters) : Exchange → FullsyncOutcome
  | .sendFailed => .requestFailed .sendFailed
  | .replyLost => .requestFailed .recvFailed
  | .answered =>
    match (t.handleCmdFullsyncreq hashFunc conf.mapInfo conf.dsIpaddr).1 with
    | .errorUnregister => .requestFailed .unregister
    | .syncsettingWaiting => .requestFailed .syncsettingWaiting
    | .masterblock masterIpaddr _ => if masterIpaddr = conf.dsIpaddr then .localBlock else .master

def reports (held : Bool) (hearbeat syncinfo blockstate : Option Exchange) : ReportOutcome :=
  if Exchange.fails held hearbeat then .hearbeatFailed
  else if Exchange.fails held syncinfo then .syncinfoFailed
  else if Exchange.fails held blockstate then .blockstateFailed
  else .ok

def top (t : Clusters) : LinkOp → TrackerOp
  | connect o => .connect o
  | register x _ => .register (decide (x = .answered))
  | fullsync lock x => .fullsync (if lock then fullsyncReq hashFunc conf t x else .lockFailed)
  | report hearbeat syncinfo blockstate _ _ _ _ _ =>
    .report (reports (holds hashFunc conf t) hearbeat syncinfo blockstate)
  | close => .close
  | fullSyncConnect o => .fullSyncConnect o
  | fullSyncNoblockFailed => .fullSyncNoblockFailed
  | fullSyncBinlogs fstate files flushed => .fullSyncBinlogs fstate files flushed
  | fullSyncData fstate flushed => .fullSyncData fstate flushed

/-- The thread makes the requests of the operation. -/
def made (locked : Bool) (g : Ctxs) (c : TrackerClient) : LinkOp → Bool
  | register _ _ => c.fullSync.isNone && g.doRun && decide (c.state = .registerd) &&
      !c.isLocalHaseregistered
  | fullsync lock _ => c.fullSync.isNone && g.doRun && decide (c.state = .fullsync) &&
      !c.isLocalHasefullsync && !locked && lock && !g.isFullsyncdone
  | report _ _ _ _ _ _ _ _ => c.fullSync.isNone && g.doRun && decide (c.state = .reporting)
  | _ => false

/-- What the requests of the operation do to the tracker. -/
def handled (now : ℤ) (t : Clusters) : LinkOp → Clusters
  | register x regTime =>
    Exchange.arrive (.handleCmdRegister hashFunc { conf with regTime := regTime }) (some x) t
  | fullsync _ x =>
    Exchange.arrive (fun t => (t.handleCmdFullsyncreq hashFunc conf.mapInfo conf.dsIpaddr).2)
      (some x) t
  | report hearbeat syncinfo blockstate lastSyncSequence conns totalMb freeMb draws =>
    let held := holds hashFunc conf t
    let t := Exchange.arrive
      (.handleCmdHeartbeat hashFunc heartBeatInterval now conf.mapInfo conf.dsIpaddr) hearbeat t
    if Exchange.fails held hearbeat then t
    else
      let t := Exchange.arrive
        (.handleCmdSyncreport hashFunc now conf.mapInfo conf.dsIpaddr lastSyncSequence) syncinfo t
      if Exchange.fails held syncinfo then t
      else Exchange.arrive
        (.handleCmdStatreport hashFunc now conf.mapInfo conf.dsIpaddr conns totalMb freeMb draws)
        blockstate t
  | _ => t

end LinkOp

structure Links where
  reporters : Reporters
  trackers : ℕ → Clusters
  /-- The tracker has been restarted without the registration of this server since the thread
  has registered, and not with it since. -/
  forgotten : ℕ → Bool

inductive LinksOp where
  | client (i : ℕ) (now : ℤ) (op : LinkOp)
  | wait (i : ℕ)
  | stop
  | others (i : ℕ) (now : ℤ) (req : Req)
  /-- A tracker is restarted, and has what it has read from its snapshot. -/
  | restart (i : ℕ) (t : Clusters)

/-- A request of others registers this server. -/
def registersSame : Req → Bool
  | .register r => decide (hashFunc r.mapInfo = hashFunc conf.mapInfo) &&
      decide (hashFunc r.dsIpaddr = hashFunc conf.dsIpaddr)
  | _ => false

namespace Links

/-- A dataserver that has just been started, with `n` trackers. -/
def start (reservedFds maxConnections : UInt32) (n : ℕ) (trackers : ℕ → Clusters) : Links :=
  ⟨.start reservedFds maxConnections n, trackers, fun _ => false⟩

/-- The thread `i` has registered. -/
def remembers (s : Links) (i : ℕ) : Bool :=
  s.reporters.server.trackers[i]?.any TrackerClient.isLocalHaseregistered

def step (s : Links) : LinksOp → Links
  | .client i now op =>
    match s.reporters.server.trackers[i]? with
    | none => s
    | some c =>
      let seen := s.reporters.seen i
      { s with
        reporters := s.reporters.step (.conn (.tracker i (op.top hashFunc conf (s.trackers i))))
        trackers := update s.trackers i
          (if op.made (seen.locked i) seen.ctxs c then
            op.handled hashFunc heartBeatInterval conf now (s.trackers i)
          else s.trackers i) }
  | .wait i => { s with reporters := s.reporters.step (.wait i) }
  | .stop => { s with reporters := s.reporters.step (.conn .stop) }
  | .others i now req =>
    if registersSame hashFunc conf req then s
    else
      { s with
        trackers := update s.trackers i
          (((s.trackers i).handle hashFunc heartBeatInterval now req).getD (s.trackers i)) }
  | .restart i t =>
    { s with
      trackers := update s.trackers i t
      forgotten := update s.forgotten i (s.remembers i && !holds hashFunc conf t) }

end Links

end Link

/-! ### What the requests do to the registration -/

section Holds

variable {hashFunc : List Byte → UInt32} {heartBeatInterval now : ℤ} {conf : DatasevrRegBodyReq}
  {t t' : Clusters}

lemma holds_iff : holds hashFunc conf t = true ↔
    (hashFunc conf.mapInfo, hashFunc conf.dsIpaddr) ∈ t.blocks.map ids := by
  rw [holds]
  exact DatasevrCluster.datasevrblockFind_isSome_iff

lemma holds_congr (h : t'.blocks.map ids = t.blocks.map ids) :
    holds hashFunc conf t' = holds hashFunc conf t := by
  rw [Bool.eq_iff_iff, holds_iff, holds_iff, h]

lemma untouched_ids : Clusters.Untouched ids :=
  ⟨fun _ _ => rfl, fun _ _ _ => rfl, fun _ _ _ _ _ => rfl, fun _ => rfl⟩

lemma holds_handleCmdRegister (regTime : Int64) :
    holds hashFunc conf (t.handleCmdRegister hashFunc { conf with regTime := regTime }) = true :=
  holds_iff.2 (DatasevrCluster.mem_ids_handleCmdRegister.2 (.inr rfl))

lemma holds_handle_others {req : Req} (hsame : registersSame hashFunc conf req = false) :
    holds hashFunc conf ((t.handle hashFunc heartBeatInterval now req).getD t) =
      holds hashFunc conf t := by
  cases hhandle : t.handle hashFunc heartBeatInterval now req with
  | none => rfl
  | some t' =>
    rw [Option.getD_some]
    by_cases hreq : ∃ r, req = .register r
    · obtain ⟨r, rfl⟩ := hreq
      obtain rfl := Option.some.inj hhandle
      rw [Bool.eq_iff_iff, holds_iff, holds_iff, DatasevrCluster.mem_ids_handleCmdRegister,
        or_iff_left]
      intro heq
      obtain ⟨hvid, hbid⟩ := Prod.mk.inj heq
      simp [registersSame, hvid, hbid] at hsame
    · exact holds_congr (untouched_ids.handle (fun r heq => hreq ⟨r, heq⟩) hhandle)

lemma holds_arrive {handler : Clusters → Clusters} (x : Option Exchange)
    (h : (handler t).blocks.map ids = t.blocks.map ids) :
    holds hashFunc conf (Exchange.arrive handler x t) = holds hashFunc conf t := by
  rcases x with _ | x
  · rfl
  · cases x with
    | sendFailed => rfl
    | replyLost | answered => exact holds_congr h

lemma holds_handled {op : LinkOp} (hop : ∀ x regTime, op ≠ .register x regTime) :
    holds hashFunc conf (op.handled hashFunc heartBeatInterval conf now t) =
      holds hashFunc conf t := by
  cases op with
  | register x regTime => exact absurd rfl (hop x regTime)
  | fullsync lock x => exact holds_arrive (some x) (Clusters.map_handleCmdFullsyncreq (fun _ _ => rfl) ..)
  | report hearbeat syncinfo blockstate sequence conns totalMb freeMb draws =>
    simp only [LinkOp.handled]
    split_ifs
    · exact holds_arrive hearbeat (untouched_ids.handleCmdHeartbeat _ _)
    · exact (holds_arrive syncinfo (untouched_ids.handleCmdSyncreport _ _ _)).trans
        (holds_arrive hearbeat (untouched_ids.handleCmdHeartbeat _ _))
    · exact ((holds_arrive blockstate (untouched_ids.handleCmdStatreport _ _ _ _ _ _)).trans
        (holds_arrive syncinfo (untouched_ids.handleCmdSyncreport _ _ _))).trans
        (holds_arrive hearbeat (untouched_ids.handleCmdHeartbeat _ _))
  | connect | close | fullSyncConnect | fullSyncNoblockFailed | fullSyncBinlogs | fullSyncData => rfl

end Holds

/-! ### The invariant -/

/-- A thread that asks for the master, copies the files or reports has registered. -/
def ThreadView.Joined (v : ThreadView) : Prop :=
  v.state = .fullsync ∨ v.state = .reporting ∨ v.syncing = true → v.registered = true

namespace ThreadView

variable {v v' : ThreadView} {names locked done done' : Bool} {op : TrackerOp}
  {ret : Option FullSyncState}

lemma Joined.moves (h : v.Joined) (hm : v.Moves locked op done names ret v' done') : v'.Joined := by
  cases hm with
  | stays => exact h
  | leaves state hidle hrep hsync => exact fun hor => absurd hor (by simp [hidle, hrep, hsync])
  | registers hstate hidle hnew hop => exact fun _ => rfl
  | rejoins hstate hidle hold => exact fun _ => hold
  | remembers hstate hidle hsynced | skips hstate hidle hdone | named hstate hidle hop
  | begins hstate hidle hsynced hlocked hdone => exact fun _ => h (.inl hstate)
  | fails fstate hsyncing hfinish hmark => exact fun hor => absurd hor (by simp)
  | finishes hsyncing | unflushed hsyncing | marks hsyncing => exact fun _ => h (.inr (.inr hsyncing))

lemma Moves.registered_eq (hm : v.Moves locked op done names ret v' done') :
    v'.registered = v.registered ∨ (v.state = .registerd ∧ v.syncing = false ∧
      v.registered = false ∧ v'.registered = true ∧ op = .register true) := by
  cases hm with
  | registers hstate hidle hnew hop => exact .inr ⟨hstate, hidle, hnew, rfl, hop⟩
  | stays | leaves | rejoins | remembers | skips | named | begins | fails | finishes | unflushed
  | marks => exact .inl rfl

end ThreadView

namespace TrackerClient

lemma step_of_not_doRun {t : TrackerClient} {g : Ctxs} (hf : t.fullSync = none)
    (hrun : g.doRun = false) (locked : Bool) (op : TrackerOp) : t.step locked op g = (t, g) := by
  simp [step, hf, hrun]

end TrackerClient

namespace Links

variable {hashFunc : List Byte → UInt32} {heartBeatInterval : ℤ} {conf : DatasevrRegBodyReq}
  {s : Links} {i : ℕ} {c : TrackerClient}

/-- What the threads remember of their registrations, and what the trackers hold of them. -/
structure Inv (hashFunc : List Byte → UInt32) (conf : DatasevrRegBodyReq) (s : Links) : Prop where
  joined : ∀ (i : ℕ) (c : TrackerClient), s.reporters.server.trackers[i]? = some c → c.view.Joined
  unregistered : ∀ (i : ℕ) (c : TrackerClient), s.reporters.server.trackers[i]? = some c →
    c.view.registered = false → s.forgotten i = false
  registered : ∀ (i : ℕ) (c : TrackerClient), s.reporters.server.trackers[i]? = some c →
    c.view.registered = true → s.forgotten i = !holds hashFunc conf (s.trackers i)

lemma inv_start (reservedFds maxConnections : UInt32) (n : ℕ) (trackers : ℕ → Clusters) :
    (start reservedFds maxConnections n trackers).Inv hashFunc conf := by
  refine ⟨fun i c hc => ?_, fun _ _ _ _ => rfl, fun i c hc hreg => ?_⟩
  · rw [Connections.view_of_start hc]
    exact fun hor => absurd hor (by simp)
  · rw [Connections.view_of_start hc] at hreg
    exact absurd hreg (by simp)

lemma holds_made {op : LinkOp} {locked : Bool} {g : Ctxs} {now : ℤ} {t : Clusters}
    (hreg : c.view.registered = true) :
    holds hashFunc conf (if op.made locked g c then
      op.handled hashFunc heartBeatInterval conf now t else t) = holds hashFunc conf t := by
  split_ifs with hmade
  · refine holds_handled fun x regTime hop => ?_
    subst hop
    simp only [LinkOp.made, Bool.and_eq_true, Bool.not_eq_true'] at hmade
    exact absurd (hmade.2.symm.trans hreg) (by simp)
  · rfl

lemma holds_made_of_registers {op : LinkOp} {locked : Bool} {g : Ctxs} {now : ℤ} {t : Clusters}
    (hstate : c.state = .registerd) (hf : c.fullSync = none) (hrun : g.doRun = true)
    (hnew : c.isLocalHaseregistered = false) (hop : op.top hashFunc conf t = .register true) :
    holds hashFunc conf (if op.made locked g c then
      op.handled hashFunc heartBeatInterval conf now t else t) = true := by
  cases op with
  | register x regTime =>
    obtain rfl : x = .answered := by simpa [LinkOp.top] using hop
    rw [if_pos (by simp [LinkOp.made, hstate, hf, hrun, hnew])]
    exact holds_handleCmdRegister regTime
  | connect | fullsync | report | close | fullSyncConnect | fullSyncNoblockFailed
  | fullSyncBinlogs | fullSyncData => exact absurd hop (by simp [LinkOp.top])

lemma Inv.client (h : s.Inv hashFunc conf) (i : ℕ) (now : ℤ) (op : LinkOp) :
    (s.step hashFunc heartBeatInterval conf (.client i now op)).Inv hashFunc conf := by
  cases hc : s.reporters.server.trackers[i]? with
  | none => simpa only [Links.step, hc] using h
  | some c =>
    simp only [Links.step, hc, Reporters.step_tracker hc]
    have hm := c.movesTo_step ((s.reporters.seen i).locked i)
      (op.top hashFunc conf (s.trackers i)) (s.reporters.seen i).ctxs
    rw [TrackerClient.MovesTo] at hm
    refine ⟨fun j u hu => ?_, fun j u hu hreg => ?_, fun j u hu hreg => ?_⟩
    · rcases Reporters.trackers_stepTracker hc hu with ⟨rfl, rfl⟩ | ⟨hji, hold⟩
      · exact (h.joined j c hc).moves hm
      · exact h.joined j u hold
    · rcases Reporters.trackers_stepTracker hc hu with ⟨rfl, rfl⟩ | ⟨hji, hold⟩
      · rcases hm.registered_eq with heq | ⟨-, -, -, hnew, -⟩
        · exact h.unregistered j c hc (heq.symm.trans hreg)
        · exact absurd (hnew.symm.trans hreg) (by simp)
      · exact h.unregistered j u hold hreg
    · rcases Reporters.trackers_stepTracker hc hu with ⟨rfl, rfl⟩ | ⟨hji, hold⟩
      · simp only [update_self]
        rcases hm.registered_eq with heq | ⟨hstate, hidle, hnew, -, hop⟩
        · have hreg := heq.symm.trans hreg
          rw [holds_made hreg]
          exact h.registered j c hc hreg
        · have hf : c.fullSync = none := by simpa [TrackerClient.view] using hidle
          have hrun : (s.reporters.seen j).ctxs.doRun = true := by
            by_contra hrun
            rw [TrackerClient.step_of_not_doRun hf (by simpa using hrun), hnew] at hreg
            exact absurd hreg (by simp)
          rw [holds_made_of_registers hstate hf hrun hnew hop]
          exact h.unregistered j c hc hnew
      · simp only [update_of_ne hji]
        exact h.registered j u hold hreg

lemma Inv.of_eq {s' : Links} (h : s.Inv hashFunc conf)
    (hthreads : s'.reporters.server.trackers = s.reporters.server.trackers)
    (hforgotten : s'.forgotten = s.forgotten)
    (hholds : ∀ i, holds hashFunc conf (s'.trackers i) = holds hashFunc conf (s.trackers i)) :
    s'.Inv hashFunc conf := by
  refine ⟨?_, ?_, ?_⟩
  · simpa only [hthreads] using h.joined
  · simpa only [hthreads, hforgotten] using h.unregistered
  · simpa only [hthreads, hforgotten, hholds] using h.registered

lemma remembers_eq (hc : s.reporters.server.trackers[i]? = some c) :
    s.remembers i = c.view.registered := by
  simp [remembers, hc, TrackerClient.view]

lemma Inv.restart (h : s.Inv hashFunc conf) (i : ℕ) (t : Clusters) :
    (s.step hashFunc heartBeatInterval conf (.restart i t)).Inv hashFunc conf := by
  rw [Links.step]
  refine ⟨h.joined, fun j c hc hreg => ?_, fun j c hc hreg => ?_⟩
  · by_cases hji : j = i
    · subst hji
      have hremembers : s.remembers j = c.view.registered := remembers_eq hc
      simp [hremembers, hreg]
    · simpa [hji] using h.unregistered j c hc hreg
  · by_cases hji : j = i
    · subst hji
      have hremembers : s.remembers j = c.view.registered := remembers_eq hc
      simp [hremembers, hreg]
    · simpa [hji] using h.registered j c hc hreg

lemma Inv.step (h : s.Inv hashFunc conf) (op : LinksOp) :
    (s.step hashFunc heartBeatInterval conf op).Inv hashFunc conf := by
  cases op with
  | client i now op => exact h.client i now op
  | restart i t => exact h.restart i t
  | stop => exact h.of_eq rfl rfl fun _ => rfl
  | wait i =>
    rcases s.reporters.step_cases (.wait i) with ⟨_, _, _, hop, -⟩ | ⟨-, hthreads, -⟩
    · exact absurd hop (by simp)
    · exact h.of_eq hthreads rfl fun _ => rfl
  | others i now req =>
    rw [Links.step]
    split_ifs with hsame
    · exact h
    · refine h.of_eq rfl rfl fun j => ?_
      by_cases hji : j = i
      · subst hji
        simp only [update_self]
        exact holds_handle_others (by simpa using hsame)
      · simp only [update_of_ne hji]

lemma forgotten_step {op : LinksOp} (hop : ∀ i t, op ≠ .restart i t) :
    (s.step hashFunc heartBeatInterval conf op).forgotten = s.forgotten := by
  cases op with
  | client i now op =>
    rw [step]
    split <;> rfl
  | wait i | stop => rfl
  | others i now req =>
    rw [step]
    split_ifs <;> rfl
  | restart i t => exact absurd rfl (hop i t)

lemma Inv.enters (h : s.Inv hashFunc conf) {op : LinksOp} (henters : s.reporters.server.Enters
      (s.step hashFunc heartBeatInterval conf op).reporters.server i) :
    s.forgotten i = false ↔
      holds hashFunc conf ((s.step hashFunc heartBeatInterval conf op).trackers i) = true := by
  have hafter : (s.step hashFunc heartBeatInterval conf op).Inv hashFunc conf := h.step op
  have hop (j : ℕ) (t : Clusters) : op ≠ .restart j t := by
    rintro rfl
    exact Connections.not_enters_of_trackers_eq rfl henters
  obtain ⟨-, c, hc, hrep⟩ := henters
  have hreg := hafter.registered i c hc (hafter.joined i c hc (.inr (.inl hrep)))
  rw [← congrFun (forgotten_step hop) i, hreg, Bool.not_eq_false']

/-- The thread comes to report only if its tracker has not forgotten it. -/
def NotForgotten (s s' : Links) : Prop :=
  ∀ i, s.reporters.server.Enters s'.reporters.server i → s.forgotten i = false

/-- The thread comes to report only if its tracker holds the registration. -/
def Registered (hashFunc : List Byte → UInt32) (conf : DatasevrRegBodyReq) (s s' : Links) : Prop :=
  ∀ i, s.reporters.server.Enters s'.reporters.server i → holds hashFunc conf (s'.trackers i) = true

end Links

/-- **Re-registration.**  In every run of a dataserver with its trackers, a thread comes to the
state `reporting` only where its tracker holds the registration of the server, if and only if no
thread comes to it after its tracker has been restarted without the registration. -/
theorem reporting_registered_iff (hashFunc : List Byte → UInt32) (heartBeatInterval : ℤ)
    (conf : DatasevrRegBodyReq) (reservedFds maxConnections : UInt32) (n : ℕ)
    (trackers : ℕ → Clusters) (ops : List LinksOp) :
    Along (Links.step hashFunc heartBeatInterval conf) (fun s _ s' => s.NotForgotten s')
        (Links.start reservedFds maxConnections n trackers) ops ↔
      Along (Links.step hashFunc heartBeatInterval conf)
        (fun s _ s' => s.Registered hashFunc conf s')
        (Links.start reservedFds maxConnections n trackers) ops :=
  Along.iff_of_inv' (Links.inv_start reservedFds maxConnections n trackers)
    (fun _ _ h => forall_congr' fun _ => imp_congr_right fun henters => h.enters henters)
    fun _ op h _ => h.step op

/-- The server registers and is named as the master.  It loses the connection, the tracker is
restarted with nothing, and the thread connects again. -/
def forgottenRun : List LinksOp :=
  [.client 0 0 (.connect .connected), .client 0 0 (.register .answered 0),
    .client 0 0 (.fullsync true .answered),
    .client 0 1 (.report (some .sendFailed) none none 0 0 0 0 0), .client 0 1 .close,
    .restart 0 .start, .client 0 2 (.connect .connected), .client 0 2 (.register .answered 2),
    .client 0 2 (.fullsync true .answered)]

/-- The thread reports to a tracker that does not know the server. -/
theorem forgottenRun_not_registered :
    ¬ Along (Links.step TrackersRun.firstByte 30 ⟨[65], [49], 80, 1, 30, 7, 8⟩)
      (fun s _ s' => s.Registered TrackersRun.firstByte ⟨[65], [49], 80, 1, 30, 7, 8⟩ s')
      (Links.start 5 100 1 fun _ => .start) forgottenRun := by
  rintro ⟨-, -, -, -, -, -, -, -, hregistered, -⟩
  have hholds := hregistered 0 ⟨⟨_, rfl, by decide +kernel⟩, _, rfl, by decide +kernel⟩
  exact absurd hholds (by decide +kernel)

end Lfs.Server
