/-
The count of open connections of a dataserver (`ctxs.curr_conns`).

The counter is raised when a client is dispatched to a thread, when a tracker client has
connected and when a full synchronisation has connected, and it is lowered where these
connections are closed.  `__trackerclient_state_machine` and `full_sync_from_master` also
close sockets that never were connected, and lower the unsigned counter for them too.  How a
network operation ends is an argument of the step.
-/
import Lfs.FullSync.Machine
import Mathlib.Algebra.BigOperators.Group.List.Basic

namespace Lfs.Server

open Lfs.FullSync Lfs.Lib

/-- `enum trackerclient_state`. -/
inductive TrackerClientState where
  | connectd
  | registerd
  | fullsync
  | reporting
  | quited
  | closed
deriving DecidableEq

/-- Where a thread stands in `full_sync_from_master`. -/
inductive SyncPhase where
  | connecting
  /-- In `__full_sync_binlog_from_master`. -/
  | binlogs
  /-- In `__full_sync_data_from_master`. -/
  | data
deriving DecidableEq

/-- The local variables of `full_sync_from_master`. -/
structure FullSyncConn where
  nfaildCount : ℕ
  phase : SyncPhase
deriving DecidableEq

structure TrackerClient where
  state : TrackerClientState
  /-- `sfd` is an open connection to the tracker. -/
  connected : Bool
  isLocalHaseregistered : Bool
  isLocalHasefullsync : Bool
  /-- The thread is in `full_sync_from_master`. -/
  fullSync : Option FullSyncConn
  /-- Open connections that no variable refers to any more. -/
  lost : ℕ
deriving DecidableEq

/-- The global variables that the threads share. -/
structure Ctxs where
  /-- `ctxs.curr_conns`. -/
  currConns : UInt32
  isFullsyncdone : Bool
  /-- `do_run_tracker_reported_thread`. -/
  doRun : Bool
deriving DecidableEq

/-- `ctxs.curr_conns++`. -/
def Ctxs.inc (g : Ctxs) : Ctxs := { g with currConns := g.currConns + 1 }

/-- `ctxs.curr_conns--`. -/
def Ctxs.dec (g : Ctxs) : Ctxs := { g with currConns := g.currConns - 1 }

inductive ConnectOutcome where
  | socketFailed
  | refused
  | connected
deriving DecidableEq

/-- How `__tracker_fullsync_req` fails. -/
inductive FullsyncReqError where
  | sendFailed
  | unregister
  | syncsettingWaiting
  | recvFailed
  | emptyResponse
deriving DecidableEq

/-- The state that `__tracker_fullsync_req` leaves in `nextto`. -/
def FullsyncReqError.nextto : FullsyncReqError → TrackerClientState
  | sendFailed => .closed
  | unregister => .registerd
  | syncsettingWaiting => .fullsync
  | recvFailed => .quited
  | emptyResponse => .closed

/-- How a round of the state `fullsync` goes up to the full synchronisation itself. -/
inductive FullsyncOutcome where
  | lockFailed
  | requestFailed (e : FullsyncReqError)
  | localBlock
  | master
deriving DecidableEq

/-- Which report of the state `reporting` fails. -/
inductive ReportOutcome where
  | ok
  | hearbeatFailed
  | syncinfoFailed
  | blockstateFailed
deriving DecidableEq

inductive TrackerOp where
  | connect (o : ConnectOutcome)
  | register (ok : Bool)
  | fullsync (o : FullsyncOutcome)
  | report (o : ReportOutcome)
  /-- A round of the states `quited` and `closed`. -/
  | close
  | fullSyncConnect (o : ConnectOutcome)
  /-- `set_noblock` of the new socket fails. -/
  | fullSyncNoblockFailed
  /-- `__full_sync_binlog_from_master` returns; `files` are there to read or not, and
  `flushed` is for `ctx_snapshot_batdata_flush`, if it is called. -/
  | fullSyncBinlogs (fstate : FullSyncState) (files flushed : Bool)
  /-- `__full_sync_data_from_master` returns. -/
  | fullSyncData (fstate : FullSyncState) (flushed : Bool)
deriving DecidableEq

namespace TrackerClient

def fresh : TrackerClient where
  state := .connectd
  connected := false
  isLocalHaseregistered := false
  isLocalHasefullsync := false
  fullSync := none
  lost := 0

def openConns (t : TrackerClient) : ℕ :=
  t.connected.toNat + (match t.fullSync with
    | some f => if f.phase = .connecting then 0 else 1
    | none => 0) + t.lost

/-- `c->sfd` is overwritten with a socket that is not connected. -/
def newSocket (t : TrackerClient) : TrackerClient :=
  { t with connected := false, lost := t.lost + t.connected.toNat }

def trackerclientconnClose (g : Ctxs) (t : TrackerClient) : TrackerClient × Ctxs :=
  ({ t with connected := false }, g.dec)

/-- The case `connectd`. -/
def connectd (o : ConnectOutcome) (g : Ctxs) (t : TrackerClient) : TrackerClient × Ctxs :=
  match o with
  | .socketFailed => (t.newSocket, { g with doRun := false })
  | .refused => ({ t.newSocket with state := .closed }, g)
  | .connected => ({ t.newSocket with state := .registerd, connected := true }, g.inc)

/-- The case `registerd`. -/
def registerd (ok : Bool) (g : Ctxs) (t : TrackerClient) : TrackerClient × Ctxs :=
  if t.isLocalHaseregistered then ({ t with state := .fullsync }, g)
  else if ok then ({ t with isLocalHaseregistered := true, state := .fullsync }, g)
  else ({ t with state := .closed }, g)

/-- The case `fullsync` up to the call of `full_sync_from_master`. -/
def fullsync (o : FullsyncOutcome) (g : Ctxs) (t : TrackerClient) : TrackerClient × Ctxs :=
  if t.isLocalHasefullsync then ({ t with state := .reporting }, g)
  else if o = .lockFailed then ({ t with state := .quited }, g)
  else if g.isFullsyncdone then ({ t with isLocalHasefullsync := true, state := .reporting }, g)
  else match o with
    | .requestFailed e => ({ t with state := e.nextto }, g)
    | .localBlock => ({ t with isLocalHasefullsync := true, state := .reporting }, g)
    | _ => ({ t with fullSync := some ⟨0, .connecting⟩ }, g)

/-- The case `fullsync` after `full_sync_from_master` has returned `fstate`. -/
def fullSyncReturned (fstate : FullSyncState) (flushed : Bool) (g : Ctxs) (t : TrackerClient) :
    TrackerClient × Ctxs :=
  let t := { t with fullSync := none }
  match fstate with
  | .networkError | .error | .ok => ({ t with state := .quited }, { g with doRun := false })
  | .finish =>
    if flushed then
      ({ t with isLocalHasefullsync := true, state := .reporting }, { g with isFullsyncdone := true })
    else (t, { g with isFullsyncdone := true, doRun := false })
  | .markError | .noInifile => ({ t with isLocalHasefullsync := true, state := .reporting }, g)

/-- The label `err` of `full_sync_from_master` with an open socket. -/
def fullSyncErr (fstate : FullSyncState) (flushed : Bool) (g : Ctxs) (t : TrackerClient) :
    TrackerClient × Ctxs :=
  t.fullSyncReturned fstate flushed g.dec

/-- The connection of `full_sync_from_master`. -/
def fullSyncConnect (o : ConnectOutcome) (f : FullSyncConn) (g : Ctxs) (t : TrackerClient) :
    TrackerClient × Ctxs :=
  match o with
  | .socketFailed => t.fullSyncReturned .networkError false g
  | .refused =>
    if 3 < f.nfaildCount then t.fullSyncErr .networkError false g
    else ({ t with fullSync := some { f with nfaildCount := f.nfaildCount + 1 } }, g)
  | .connected => ({ t with fullSync := some { f with phase := .binlogs } }, g.inc)

/-- The connection is closed and the loop goes round again. -/
def fullSyncReconnect (f : FullSyncConn) (g : Ctxs) (t : TrackerClient) : TrackerClient × Ctxs :=
  ({ t with fullSync := some { f with phase := .connecting } }, g.dec)

/-- After `__full_sync_binlog_from_master`. -/
def fullSyncBinlogs (fstate : FullSyncState) (files flushed : Bool) (f : FullSyncConn) (g : Ctxs)
    (t : TrackerClient) : TrackerClient × Ctxs :=
  match fstate with
  | .error | .markError => t.fullSyncErr fstate flushed g
  | .networkError => t.fullSyncReconnect f g
  | _ =>
    if files then ({ t with fullSync := some { f with phase := .data } }, g)
    else t.fullSyncErr .finish flushed g

/-- After `__full_sync_data_from_master`.  For any other result the loop goes round again and
the socket is overwritten. -/
def fullSyncData (fstate : FullSyncState) (flushed : Bool) (f : FullSyncConn) (g : Ctxs)
    (t : TrackerClient) : TrackerClient × Ctxs :=
  match fstate with
  | .finish | .error => t.fullSyncErr fstate flushed g
  | .networkError => t.fullSyncReconnect f g
  | _ => ({ t with fullSync := some { f with phase := .connecting }, lost := t.lost + 1 }, g)

/-- The case `reporting`. -/
def reporting (o : ReportOutcome) (g : Ctxs) (t : TrackerClient) : TrackerClient × Ctxs :=
  match o with
  | .ok => (t, g)
  | .hearbeatFailed => ({ t with state := .closed }, g)
  | .syncinfoFailed => ({ t with state := .quited }, g)
  | .blockstateFailed => ({ t with state := .closed }, g)

/-- The case `closed`. -/
def closed (g : Ctxs) (t : TrackerClient) : TrackerClient × Ctxs :=
  ({ (t.trackerclientconnClose g).1 with state := .connectd }, (t.trackerclientconnClose g).2)

/-- One step of the thread.  In `full_sync_from_master` it does not look at
`do_run_tracker_reported_thread`; `locked` says that another thread is there and holds the
lock. -/
def step (locked : Bool) (op : TrackerOp) (g : Ctxs) (t : TrackerClient) : TrackerClient × Ctxs :=
  match t.fullSync with
  | some f =>
    match f.phase, op with
    | .connecting, .fullSyncConnect o => t.fullSyncConnect o f g
    | .connecting, .fullSyncNoblockFailed => t.fullSyncErr .networkError false g
    | .binlogs, .fullSyncBinlogs fstate files flushed => t.fullSyncBinlogs fstate files flushed f g
    | .data, .fullSyncData fstate flushed => t.fullSyncData fstate flushed f g
    | _, _ => (t, g)
  | none =>
    if g.doRun then
      match t.state, op with
      | .connectd, .connect o => t.connectd o g
      | .registerd, .register ok => t.registerd ok g
      | .fullsync, .fullsync o => if locked && !t.isLocalHasefullsync then (t, g) else t.fullsync o g
      | .reporting, .report o => t.reporting o g
      | .quited, .close => t.trackerclientconnClose g
      | .closed, .close => t.closed g
      | _, _ => (t, g)
    else (t, g)

end TrackerClient

/-- The connections of a dataserver: the global variables, the accepted clients that wait for
`conn_new` and those that have a `conn`, and the tracker clients. -/
structure Connections where
  ctxs : Ctxs
  reservedFds : UInt32
  /-- `confitems.max_connections`. -/
  maxConnections : UInt32
  queued : ℕ
  conns : ℕ
  trackers : List TrackerClient
deriving DecidableEq

inductive ConnOp where
  /-- `__on_accept` has a new socket; `item` says that `conn_item_new` succeeds. -/
  | accept (item : Bool)
  /-- `conn_new` for the next queued client. -/
  | connNew (ok : Bool)
  /-- `conn_close` of some client. -/
  | connClose
  | tracker (i : ℕ) (op : TrackerOp)
  /-- `do_run_tracker_reported_thread` is cleared. -/
  | stop
deriving DecidableEq

namespace Connections

/-- A dataserver that has just been started, with `n` trackers. -/
def start (reservedFds maxConnections : UInt32) (n : ℕ) : Connections where
  ctxs := ⟨0, false, true⟩
  reservedFds := reservedFds
  maxConnections := maxConnections
  queued := 0
  conns := 0
  trackers := List.replicate n .fresh

def openConns (s : Connections) : ℕ :=
  s.queued + s.conns + (s.trackers.map TrackerClient.openConns).sum

/-- The test of `__on_accept` for too many connections. -/
def rejects (s : Connections) : Bool :=
  s.maxConnections - 1 ≤ s.ctxs.currConns + s.reservedFds

/-- Some other thread than `i` is in the full synchronisation. -/
def locked (s : Connections) (i : ℕ) : Bool :=
  (s.trackers.eraseIdx i).any fun t => t.fullSync.isSome

def step (s : Connections) : ConnOp → Connections
  | .accept item =>
    if s.rejects || !item then s
    else { s with queued := s.queued + 1, ctxs := s.ctxs.inc }
  | .connNew ok =>
    if s.queued = 0 then s
    else if ok then { s with queued := s.queued - 1, conns := s.conns + 1 }
    else { s with queued := s.queued - 1, ctxs := s.ctxs.dec }
  | .connClose =>
    if s.conns = 0 then s else { s with conns := s.conns - 1, ctxs := s.ctxs.dec }
  | .tracker i op =>
    match s.trackers[i]? with
    | none => s
    | some t =>
      let r := t.step (s.locked i) op s.ctxs
      { s with trackers := s.trackers.set i r.1, ctxs := r.2 }
  | .stop => { s with ctxs := { s.ctxs with doRun := false } }

def Accounted (s : Connections) : Prop := s.ctxs.currConns.toNat = s.openConns

/-- A client is rejected only when that many connections are open. -/
def FairReject (s : Connections) : ConnOp → Prop
  | .accept _ => s.rejects = true → s.maxConnections.toNat - 1 ≤ s.openConns + s.reservedFds.toNat
  | _ => True

end Connections

/-- The condition on a step of a tracker client: a connection is closed only if it is open,
and a full synchronisation does not give up its attempts to connect. -/
def TrackerClient.Matched (op : TrackerOp) (g : Ctxs) (t : TrackerClient) : Prop :=
  (∀ f ∈ t.fullSync, f.phase = .connecting →
    op ≠ .fullSyncNoblockFailed ∧ (op = .fullSyncConnect .refused → f.nfaildCount ≤ 3)) ∧
  (t.fullSync = none → g.doRun = true → op = .close → t.state = .quited ∨ t.state = .closed →
    t.connected = true)

def Connections.Matched (s : Connections) : ConnOp → Prop
  | .tracker i op => ∀ t ∈ s.trackers[i]?, t.Matched op s.ctxs
  | _ => True

instance (op : TrackerOp) (g : Ctxs) (t : TrackerClient) : Decidable (t.Matched op g) :=
  inferInstanceAs (Decidable ((∀ f ∈ _, _ → _) ∧ _))

instance (s : Connections) : (op : ConnOp) → Decidable (s.Matched op)
  | .tracker _ _ => inferInstanceAs (Decidable (∀ t ∈ _, _))
  | .accept _ | .connNew _ | .connClose | .stop => isTrue trivial

instance (s : Connections) : Decidable s.Accounted := inferInstanceAs (Decidable (_ = _))

instance (s : Connections) : (op : ConnOp) → Decidable (s.FairReject op)
  | .accept _ => inferInstanceAs (Decidable (_ → _))
  | .tracker _ _ | .connNew _ | .connClose | .stop => isTrue trivial

/-! ### What a step does to the counter -/

/-- From `n` open connections and the counter `c` to `n'` and `c'`: nothing changes, one
connection is opened and counted, or one is closed and counted off. -/
inductive Balanced (n : ℕ) (c : UInt32) : ℕ → UInt32 → Prop
  | same : Balanced n c n c
  | opened : Balanced n c (n + 1) (c + 1)
  | closed {n' : ℕ} (h : n = n' + 1) : Balanced n c n' (c - 1)

lemma Balanced.toNat_eq {n n' : ℕ} {c c' : UInt32} (h : Balanced n c n' c') (hc : c.toNat = n)
    (hlt : n' < 2 ^ 32) : c'.toNat = n' := by
  cases h with
  | same => exact hc
  | opened =>
    rw [UInt32.toNat_add]
    simp
    omega
  | closed h =>
    have := c.toNat_lt
    rw [UInt32.toNat_sub]
    simp
    omega

lemma toNat_sub_one_ne (c : UInt32) : (c - 1).toNat ≠ c.toNat := by
  have := c.toNat_lt
  rw [UInt32.toNat_sub]
  simp
  omega

namespace TrackerClient

variable {t : TrackerClient} {g : Ctxs} {f : FullSyncConn} {locked : Bool} {op : TrackerOp}

/-- A step of a tracker's thread with this result keeps the balance. -/
def Balances (t : TrackerClient) (g : Ctxs) (r : TrackerClient × Ctxs) : Prop :=
  Balanced t.openConns g.currConns r.1.openConns r.2.currConns

lemma openConns_of_some (h : t.fullSync = some f) : t.openConns =
    t.connected.toNat + (if f.phase = .connecting then 0 else 1) + t.lost := by
  simp [openConns, h]

lemma fullSyncReturned_spec (fstate : FullSyncState) (flushed : Bool) (g : Ctxs)
    (t : TrackerClient) :
    (t.fullSyncReturned fstate flushed g).1.openConns = t.connected.toNat + t.lost ∧
      (t.fullSyncReturned fstate flushed g).2.currConns = g.currConns := by
  cases fstate <;> cases flushed <;> simp [fullSyncReturned, openConns]

/-- The label `err` with a connection: it is closed and counted off. -/
lemma balanced_fullSyncErr (hf : t.fullSync = some f) (hphase : f.phase ≠ .connecting)
    (fstate : FullSyncState) (flushed : Bool) : t.Balances g (t.fullSyncErr fstate flushed g) := by
  obtain ⟨hopen, hcurr⟩ := fullSyncReturned_spec fstate flushed g.dec t
  rw [Balances, fullSyncErr, hopen, hcurr]
  refine .closed ?_
  rw [openConns_of_some hf, if_neg hphase]
  omega

lemma balanced_fullSyncReconnect (hf : t.fullSync = some f) (hphase : f.phase ≠ .connecting) :
    t.Balances g (t.fullSyncReconnect f g) := by
  refine .closed ?_
  rw [openConns_of_some hf, if_neg hphase]
  simp [fullSyncReconnect, openConns]
  omega

lemma balanced_of_eq {t' : TrackerClient} {g' : Ctxs} (hopen : t'.openConns = t.openConns)
    (hcurr : g'.currConns = g.currConns) : t.Balances g (t', g') := by
  rw [Balances, hopen, hcurr]
  exact .same

lemma newSocket_openConns (t : TrackerClient) : t.newSocket.openConns = t.openConns := by
  simp only [openConns, newSocket, Bool.toNat_false]
  omega

lemma balanced_connecting (hf : t.fullSync = some f) (hphase : f.phase = .connecting)
    (hm : t.Matched op g) : t.Balances g (t.step locked op g) := by
  have hcond := hm.1 f hf
  have hzero : t.openConns = t.connected.toNat + t.lost := by
    rw [openConns_of_some hf, if_pos hphase]
    omega
  cases op with
  | fullSyncConnect o =>
    simp only [step, hf, hphase]
    cases o with
    | socketFailed =>
      obtain ⟨hopen, hcurr⟩ := fullSyncReturned_spec .networkError false g t
      exact balanced_of_eq (hopen.trans hzero.symm) hcurr
    | refused =>
      have hle : ¬ 3 < f.nfaildCount := Nat.not_lt.2 ((hcond hphase).2 rfl)
      rw [fullSyncConnect, if_neg hle]
      exact balanced_of_eq (by simp [openConns, hphase, hf]) rfl
    | connected =>
      have hopen : t.openConns + 1 = (t.fullSyncConnect .connected f g).1.openConns := by
        rw [hzero]
        simp [fullSyncConnect, openConns]
        omega
      rw [Balances, ← hopen]
      exact .opened
  | fullSyncNoblockFailed => exact absurd rfl (hcond hphase).1
  | connect | register | fullsync | report | close | fullSyncBinlogs | fullSyncData =>
    simp only [step, hf, hphase]
    exact .same

lemma balanced_binlogs (hf : t.fullSync = some f) (hphase : f.phase = .binlogs) :
    t.Balances g (t.step locked op g) := by
  have hne : f.phase ≠ .connecting := by simp [hphase]
  cases op with
  | fullSyncBinlogs fstate files flushed =>
    simp only [step, hf, hphase]
    cases fstate with
    | error | markError => exact balanced_fullSyncErr hf hne _ flushed
    | networkError => exact balanced_fullSyncReconnect hf hne
    | ok | noInifile | finish =>
      cases files with
      | true => exact balanced_of_eq (by simp [openConns, hphase, hf]) rfl
      | false => exact balanced_fullSyncErr hf hne .finish flushed
  | connect | register | fullsync | report | close | fullSyncConnect | fullSyncNoblockFailed
  | fullSyncData =>
    simp only [step, hf, hphase]
    exact .same

lemma balanced_data (hf : t.fullSync = some f) (hphase : f.phase = .data) :
    t.Balances g (t.step locked op g) := by
  have hne : f.phase ≠ .connecting := by simp [hphase]
  cases op with
  | fullSyncData fstate flushed =>
    simp only [step, hf, hphase]
    cases fstate with
    | finish | error => exact balanced_fullSyncErr hf hne _ flushed
    | networkError => exact balanced_fullSyncReconnect hf hne
    | ok | noInifile | markError =>
      refine balanced_of_eq ?_ rfl
      simp [openConns, hphase, hf]
      omega
  | connect | register | fullsync | report | close | fullSyncConnect | fullSyncNoblockFailed
  | fullSyncBinlogs =>
    simp only [step, hf, hphase]
    exact .same

lemma balanced_of_some (hf : t.fullSync = some f) (hm : t.Matched op g) :
    t.Balances g (t.step locked op g) := by
  cases hphase : f.phase with
  | connecting => exact balanced_connecting hf hphase hm
  | binlogs => exact balanced_binlogs hf hphase
  | data => exact balanced_data hf hphase

lemma balanced_connectd (hf : t.fullSync = none) (o : ConnectOutcome) :
    t.Balances g (t.connectd o g) := by
  cases o with
  | socketFailed | refused => exact balanced_of_eq t.newSocket_openConns rfl
  | connected =>
    have hsucc : t.openConns + 1 = (t.connectd .connected g).1.openConns := by
      simp [connectd, newSocket, openConns, hf]
      omega
    rw [Balances, ← hsucc]
    exact .opened

lemma balanced_registerd (ok : Bool) : t.Balances g (t.registerd ok g) := by
  unfold registerd
  split_ifs
  · exact .same
  · exact .same
  · exact .same

lemma balanced_fullsync (hf : t.fullSync = none) (o : FullsyncOutcome) :
    t.Balances g (t.fullsync o g) := by
  unfold fullsync
  split_ifs
  · exact .same
  · exact .same
  · exact .same
  · cases o with
    | requestFailed e | localBlock => exact .same
    | lockFailed | master => exact balanced_of_eq (by simp [openConns, hf]) rfl

lemma balanced_reporting (o : ReportOutcome) : t.Balances g (t.reporting o g) := by
  cases o with
  | ok | hearbeatFailed | syncinfoFailed | blockstateFailed => exact .same

lemma balanced_trackerclientconnClose (hconn : t.connected = true) :
    t.Balances g (t.trackerclientconnClose g) := by
  refine .closed ?_
  simp only [trackerclientconnClose, openConns, hconn, Bool.toNat_true, Bool.toNat_false]
  omega

/-- Every round of `__trackerclient_state_machine` that meets the condition. -/
lemma balanced_of_none (hf : t.fullSync = none) (hm : t.Matched op g) :
    t.Balances g (t.step locked op g) := by
  simp only [step, hf]
  by_cases hrun : g.doRun = true
  · have hcond := hm.2 hf hrun
    rw [if_pos hrun]
    split
    · exact balanced_connectd hf _
    · exact balanced_registerd _
    · split
      · exact .same
      · exact balanced_fullsync hf _
    · exact balanced_reporting _
    · exact balanced_trackerclientconnClose (hcond rfl (Or.inl ‹_›))
    · exact balanced_trackerclientconnClose (hcond rfl (Or.inr ‹_›))
    · exact .same
  · rw [if_neg hrun]
    exact .same

lemma balanced_step (locked : Bool) (hm : t.Matched op g) : t.Balances g (t.step locked op g) := by
  rcases hf : t.fullSync with _ | f
  · exact balanced_of_none hf hm
  · exact balanced_of_some hf hm

lemma step_of_not_matched (locked : Bool) (hm : ¬ t.Matched op g) :
    (t.step locked op g).1.openConns = t.openConns ∧
      (t.step locked op g).2.currConns = g.currConns - 1 := by
  rcases hf : t.fullSync with _ | f
  · -- a connection is closed that is not open
    simp only [Matched, hf, Option.mem_def, reduceCtorEq, false_implies, implies_true, true_and,
      true_implies, not_forall, Bool.not_eq_true] at hm
    obtain ⟨hrun, rfl, hstate, hconn⟩ := hm
    rcases hstate with hstate | hstate
    · simp [step, hf, hrun, hstate, trackerclientconnClose, openConns, hconn, Ctxs.dec]
    · simp [step, hf, hrun, hstate, closed, trackerclientconnClose, openConns, hconn, Ctxs.dec]
  · simp only [Matched, hf, Option.mem_def, Option.some.injEq, forall_eq', reduceCtorEq,
      false_implies, and_true] at hm
    rcases Classical.not_imp.1 hm with ⟨hphase, hop⟩
    have hzero : t.openConns = t.connected.toNat + t.lost := by
      rw [openConns_of_some hf, if_pos hphase]
      omega
    obtain ⟨hopen, hcurr⟩ := fullSyncReturned_spec .networkError false g.dec t
    have herr : (t.fullSyncErr .networkError false g).1.openConns = t.openConns ∧
        (t.fullSyncErr .networkError false g).2.currConns = g.currConns - 1 :=
      ⟨hopen.trans hzero.symm, hcurr⟩
    by_cases hnoblock : op = .fullSyncNoblockFailed
    · simpa only [step, hf, hphase, hnoblock] using herr
    · simp only [ne_eq, hnoblock, not_false_eq_true, true_and, Classical.not_imp, not_le] at hop
      obtain ⟨rfl, hlt⟩ := hop
      simpa only [step, hf, hphase, fullSyncConnect, if_pos hlt] using herr

end TrackerClient

/-! ### The server -/

lemma sum_map_set {α : Type*} (n : α → ℕ) {l : List α} {i : ℕ} {a : α} (b : α) (h : l[i]? = some a) :
    ((l.set i b).map n).sum + n a = (l.map n).sum + n b := by
  induction l generalizing i with
  | nil => simp at h
  | cons x l ih =>
    cases i with
    | zero =>
      obtain rfl : x = a := by simpa using h
      simp
      omega
    | succ i =>
      have := ih (by simpa using h)
      simp only [List.set_cons_succ, List.map_cons, List.sum_cons]
      omega

namespace Connections

variable {s : Connections} {op : ConnOp}

lemma balanced_step (hm : s.Matched op) :
    Balanced s.openConns s.ctxs.currConns (s.step op).openConns (s.step op).ctxs.currConns := by
  cases op with
  | accept item =>
    rw [step]
    split_ifs
    · exact .same
    · have hopen : s.openConns + 1 = openConns { s with
          queued := s.queued + 1, ctxs := s.ctxs.inc } := by
        simp only [openConns]
        omega
      rw [← hopen]
      exact .opened
  | connNew ok =>
    rw [step]
    split_ifs with hzero
    · exact .same
    · have hopen : s.openConns = openConns { s with
          queued := s.queued - 1, conns := s.conns + 1 } := by
        simp only [openConns]
        omega
      rw [← hopen]
      exact .same
    · refine .closed ?_
      simp only [openConns]
      omega
  | connClose =>
    rw [step]
    split_ifs with hzero
    · exact .same
    · refine .closed ?_
      simp only [openConns]
      omega
  | tracker i op =>
    rcases ht : s.trackers[i]? with _ | t
    · simp only [step, ht]
      exact .same
    · have hbal := TrackerClient.balanced_step (s.locked i) (hm t ht)
      have hsum := sum_map_set TrackerClient.openConns (t.step (s.locked i) op s.ctxs).1 ht
      rw [TrackerClient.Balances] at hbal
      simp only [step, ht, openConns]
      -- the other threads have the same connections before and after
      generalize (t.step (s.locked i) op s.ctxs).1.openConns = n at hbal hsum
      generalize (t.step (s.locked i) op s.ctxs).2.currConns = c at hbal
      cases hbal with
      | same =>
        rw [show ((s.trackers.set i _).map TrackerClient.openConns).sum
          = (s.trackers.map TrackerClient.openConns).sum by omega]
        exact .same
      | opened =>
        rw [show s.queued + s.conns + ((s.trackers.set i _).map TrackerClient.openConns).sum
          = s.queued + s.conns + (s.trackers.map TrackerClient.openConns).sum + 1 by omega]
        exact .opened
      | closed h => exact .closed (by omega)
  | stop => exact .same

lemma step_of_not_matched (hm : ¬ s.Matched op) : (s.step op).openConns = s.openConns ∧
    (s.step op).ctxs.currConns = s.ctxs.currConns - 1 := by
  cases op with
  | accept item | connNew ok | connClose | stop => exact absurd trivial hm
  | tracker i op =>
    obtain ⟨t, ht⟩ := not_forall.1 hm
    obtain ⟨ht, hm⟩ := Classical.not_imp.1 ht
    obtain ⟨hopen, hcurr⟩ := TrackerClient.step_of_not_matched (s.locked i) hm
    have hsum := sum_map_set TrackerClient.openConns (t.step (s.locked i) op s.ctxs).1 ht
    rw [hopen] at hsum
    have hstep : s.step (.tracker i op) = { s with
        trackers := s.trackers.set i (t.step (s.locked i) op s.ctxs).1
        ctxs := (t.step (s.locked i) op s.ctxs).2 } := by
      rw [step, ht]
    rw [hstep]
    refine ⟨?_, hcurr⟩
    simp only [openConns]
    omega

/-- The test of `__on_accept` is right when the counter is. -/
lemma Accounted.fairReject (h : s.Accounted) (op : ConnOp) : s.FairReject op := by
  cases op with
  | accept item =>
    intro hrej
    have hle : s.maxConnections - 1 ≤ s.ctxs.currConns + s.reservedFds := by
      simpa [rejects] using hrej
    rw [UInt32.le_iff_toNat_le, UInt32.toNat_sub, UInt32.toNat_add, h] at hle
    have hmax := s.maxConnections.toNat_lt
    simp only [UInt32.toNat_one] at hle
    omega
  | connNew ok | connClose | tracker i op | stop => trivial

lemma accounted_start (reservedFds maxConnections : UInt32) (n : ℕ) :
    (start reservedFds maxConnections n).Accounted := by
  simp [Accounted, start, openConns, TrackerClient.openConns, TrackerClient.fresh]

end Connections

/-- **Connection accounting.**  In every run of a dataserver with any number of trackers and
fewer than `2 ^ 32` open connections, every tracker connection that is closed is open and no
full synchronisation gives up its attempts to connect, if and only if at every point the
counter is the number of open connections and a client is rejected only when that many
connections are open. -/
theorem connections_accounted_iff (reservedFds maxConnections : UInt32) (n : ℕ) (ops : List ConnOp)
    (hfds : Along Connections.step (fun _ _ s' => s'.openConns < 2 ^ 32)
      (Connections.start reservedFds maxConnections n) ops) :
    Along Connections.step (fun s op _ => s.Matched op)
        (Connections.start reservedFds maxConnections n) ops ↔
      Along Connections.step (fun s op s' => s'.Accounted ∧ s.FairReject op)
        (Connections.start reservedFds maxConnections n) ops := by
  -- a step that meets the condition keeps the count
  have hkeep : ∀ (s : Connections) (op : ConnOp), s.Accounted → (s.step op).openConns < 2 ^ 32 →
      s.Matched op → (s.step op).Accounted := by
    intro s op hs hlt hm
    exact (Connections.balanced_step hm).toNat_eq hs hlt
  refine Along.iff_of_inv (Connections.accounted_start reservedFds maxConnections n) hfds ?_ ?_
  · intro s op hs hlt
    refine ⟨fun hm => ⟨hkeep s op hs hlt hm, hs.fairReject op⟩, fun hacc => ?_⟩
    by_contra hm
    obtain ⟨hopen, hcurr⟩ := Connections.step_of_not_matched hm
    have hnow := hacc.1
    rw [Connections.Accounted, hopen, hcurr, ← hs] at hnow
    exact toNat_sub_one_ne _ hnow
  · intro s op hs hlt hm
    exact hkeep s op hs hlt hm

/-- A client is accepted and closed, and the tracker connects, registers and loses its
connection. -/
def connectAndClose : List ConnOp :=
  [.accept true, .connNew true, .tracker 0 (.connect .connected), .tracker 0 (.register true),
    .connClose, .tracker 0 (.fullsync .localBlock), .tracker 0 (.report .hearbeatFailed),
    .tracker 0 .close]

theorem connections_accounted_connectAndClose :
    Along Connections.step (fun s op s' => s'.Accounted ∧ s.FairReject op)
      (Connections.start 5 100 1) connectAndClose :=
  (connections_accounted_iff 5 100 1 connectAndClose (by decide)).1 (by decide)

/-- The tracker cannot be reached: closing the socket lowers the counter from zero. -/
theorem trackerRefused_not_accounted :
    ¬ Along Connections.step (fun s op s' => s'.Accounted ∧ s.FairReject op)
      (Connections.start 5 100 1) [.tracker 0 (.connect .refused), .tracker 0 .close] := by
  decide

end Lfs.Server
