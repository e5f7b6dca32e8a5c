/-
Which threads of `__trackerclient_state_machine` come to report.

A thread reports to its tracker once it knows that the server has the files of the volume:
its tracker has named this server as the master, or the files have been copied from the
master.  The copy is made under a lock that the threads share, and only once; how it ended
is looked at in a chain of comparisons in which `F_SYNC_MARK_ERROR` does not occur, so that
the thread then goes on as after a copy that is complete.
-/
import Lfs.Server.Accounting

namespace Lfs.Server

open Lfs.FullSync Lfs.Lib List Option Function Connections

/-! ### What a step does to a thread -/

/-- A thread without its connections. -/
structure ThreadView where
  state : TrackerClientState
  /-- `is_local_haseregistered`. -/
  registered : Bool
  /-- `is_local_hasefullsync`. -/
  synced : Bool
  /-- The thread is in `full_sync_from_master`, and holds the lock. -/
  syncing : Bool
deriving DecidableEq

namespace TrackerClient

def view (t : TrackerClient) : ThreadView :=
  ⟨t.state, t.isLocalHaseregistered, t.isLocalHasefullsync, t.fullSync.isSome⟩

/-- What `full_sync_from_master` returns in this step, if it returns. -/
def returned (op : TrackerOp) (t : TrackerClient) : Option FullSyncState :=
  match t.fullSync with
  | none => none
  | some f =>
    match f.phase, op with
    | .connecting, .fullSyncConnect .socketFailed => some .networkError
    | .connecting, .fullSyncConnect .refused =>
      if 3 < f.nfaildCount then some .networkError else none
    | .connecting, .fullSyncNoblockFailed => some .networkError
    | .binlogs, .fullSyncBinlogs .error _ _ => some .error
    | .binlogs, .fullSyncBinlogs .markError _ _ => some .markError
    | .binlogs, .fullSyncBinlogs .networkError _ _ => none
    | .binlogs, .fullSyncBinlogs _ files _ => if files then none else some .finish
    | .data, .fullSyncData .finish _ => some .finish
    | .data, .fullSyncData .error _ => some .error
    | _, _ => none

/-- The thread asks its tracker for the master in this step, and the tracker names this
server. -/
def names (locked : Bool) (op : TrackerOp) (g : Ctxs) (t : TrackerClient) : Bool :=
  t.fullSync.isNone && g.doRun && decide (t.state = .fullsync) && !t.isLocalHasefullsync &&
    !locked && !g.isFullsyncdone && decide (op = .fullsync .localBlock)

end TrackerClient

/-- What a step does to a thread and to `ctxs.is_fullsyncdone`, if in this step the tracker
does or does not name the server, and `full_sync_from_master` does or does not return. -/
inductive ThreadView.Moves (locked : Bool) (op : TrackerOp) (v : ThreadView) (done : Bool) :
    Bool → Option FullSyncState → ThreadView → Bool → Prop
  | stays : Moves locked op v done false none v done
  | leaves (state : TrackerClientState) (hidle : v.syncing = false) (hrep : state ≠ .reporting)
      (hsync : state ≠ .fullsync) : Moves locked op v done false none { v with state := state } done
  | registers (hstate : v.state = .registerd) (hidle : v.syncing = false)
      (hnew : v.registered = false) (hop : op = .register true) :
      Moves locked op v done false none { v with state := .fullsync, registered := true } done
  /-- The thread has registered on an earlier connection. -/
  | rejoins (hstate : v.state = .registerd) (hidle : v.syncing = false)
      (hold : v.registered = true) :
      Moves locked op v done false none { v with state := .fullsync } done
  /-- The thread has been in the state `reporting` on an earlier connection. -/
  | remembers (hstate : v.state = .fullsync) (hidle : v.syncing = false)
      (hsynced : v.synced = true) :
      Moves locked op v done false none { v with state := .reporting } done
  /-- Another thread has made the copy. -/
  | skips (hstate : v.state = .fullsync) (hidle : v.syncing = false) (hdone : done = true) :
      Moves locked op v done false none { v with state := .reporting, synced := true } done
  | named (hstate : v.state = .fullsync) (hidle : v.syncing = false)
      (hop : op = .fullsync .localBlock) :
      Moves locked op v done true none { v with state := .reporting, synced := true } done
  | begins (hstate : v.state = .fullsync) (hidle : v.syncing = false) (hsynced : v.synced = false)
      (hlocked : locked = false) (hdone : done = false) :
      Moves locked op v done false none { v with syncing := true } done
  | fails (fstate : FullSyncState) (hsyncing : v.syncing = true) (hfinish : fstate ≠ .finish)
      (hmark : fstate ≠ .markError) : Moves locked op v done false (some fstate)
        { v with syncing := false, state := .quited } done
  | finishes (hsyncing : v.syncing = true) : Moves locked op v done false (some .finish)
      { v with syncing := false, state := .reporting, synced := true } true
  /-- `ctx_snapshot_batdata_flush` fails after the copy. -/
  | unflushed (hsyncing : v.syncing = true) : Moves locked op v done false (some .finish)
      { v with syncing := false } true
  /-- No comparison is for this result. -/
  | marks (hsyncing : v.syncing = true) : Moves locked op v done false (some .markError)
      { v with syncing := false, state := .reporting, synced := true } done

namespace TrackerClient

variable {t : TrackerClient} {g : Ctxs} {f : FullSyncConn} {locked : Bool} {op : TrackerOp}

/-- The step `r` of the thread `t`, in the terms of `Moves`. -/
def MovesTo (locked : Bool) (op : TrackerOp) (g : Ctxs) (t : TrackerClient)
    (r : TrackerClient × Ctxs) : Prop :=
  t.view.Moves locked op g.isFullsyncdone (t.names locked op g) (t.returned op) r.1.view
    r.2.isFullsyncdone

section Sync

variable (hf : t.fullSync = some f)
include hf

lemma names_of_some : t.names locked op g = false := by
  simp [names, hf]

lemma movesTo_fullSyncReturned {fstate : FullSyncState} {g' : Ctxs}
    (hret : t.returned op = some fstate) (hini : fstate ≠ .noInifile) (flushed : Bool)
    (hg : g'.isFullsyncdone = g.isFullsyncdone) :
    t.MovesTo locked op g (t.fullSyncReturned fstate flushed g') := by
  have hsyncing : t.view.syncing = true := by simp [view, hf]
  rw [MovesTo, names_of_some hf, hret, ← hg]
  cases fstate with
  | ok => exact .fails .ok hsyncing (by simp) (by simp)
  | error => exact .fails .error hsyncing (by simp) (by simp)
  | networkError => exact .fails .networkError hsyncing (by simp) (by simp)
  | noInifile => exact absurd rfl hini
  | markError => exact .marks hsyncing
  | finish =>
    cases flushed with
    | true => exact .finishes hsyncing
    | false => exact .unflushed hsyncing

lemma movesTo_of_syncing {r : TrackerClient × Ctxs}
    (hret : t.returned op = none) (hview : r.1.view = t.view)
    (hdone : r.2.isFullsyncdone = g.isFullsyncdone) : t.MovesTo locked op g r := by
  rw [MovesTo, names_of_some hf, hret, hview, hdone]
  exact .stays

lemma view_fullSync (f' : FullSyncConn) (lost : ℕ) :
    view { t with fullSync := some f', lost := lost } = t.view := by
  simp [view, hf]

lemma movesTo_connecting (hphase : f.phase = .connecting) :
    t.MovesTo locked op g (t.step locked op g) := by
  cases op with
  | fullSyncConnect o =>
    simp only [step, hf, hphase]
    cases o with
    | socketFailed =>
      exact movesTo_fullSyncReturned hf (by simp [returned, hf, hphase]) (by simp) _ rfl
    | refused =>
      rw [fullSyncConnect]
      split_ifs with hcount
      · exact movesTo_fullSyncReturned hf (by simp [returned, hf, hphase, hcount]) (by simp) _ rfl
      · exact movesTo_of_syncing hf (by simp [returned, hf, hphase, hcount])
          (view_fullSync hf _ _) rfl
    | connected =>
      exact movesTo_of_syncing hf (by simp [returned, hf, hphase]) (view_fullSync hf _ _) rfl
  | fullSyncNoblockFailed =>
    simp only [step, hf, hphase]
    exact movesTo_fullSyncReturned hf (by simp [returned, hf, hphase]) (by simp) _ rfl
  | connect | register | fullsync | report | close | fullSyncBinlogs | fullSyncData =>
    simp only [step, hf, hphase]
    exact movesTo_of_syncing hf (by simp [returned, hf, hphase]) rfl rfl

lemma movesTo_binlogs (hphase : f.phase = .binlogs) :
    t.MovesTo locked op g (t.step locked op g) := by
  cases op with
  | fullSyncBinlogs fstate files flushed =>
    simp only [step, hf, hphase]
    cases fstate with
    | error | markError =>
      exact movesTo_fullSyncReturned hf (by simp [returned, hf, hphase]) (by simp) _ rfl
    | networkError =>
      exact movesTo_of_syncing hf (by simp [returned, hf, hphase]) (view_fullSync hf _ _) rfl
    | ok | noInifile | finish =>
      cases files with
      | true => exact movesTo_of_syncing hf (by simp [returned, hf, hphase]) (view_fullSync hf _ _) rfl
      | false =>
        change t.MovesTo _ _ _ (t.fullSyncErr .finish flushed g)
        exact movesTo_fullSyncReturned hf (by simp [returned, hf, hphase]) (by simp) _ rfl
  | connect | register | fullsync | report | close | fullSyncConnect | fullSyncNoblockFailed
  | fullSyncData =>
    simp only [step, hf, hphase]
    exact movesTo_of_syncing hf (by simp [returned, hf, hphase]) rfl rfl

lemma movesTo_data (hphase : f.phase = .data) : t.MovesTo locked op g (t.step locked op g) := by
  cases op with
  | fullSyncData fstate flushed =>
    simp only [step, hf, hphase]
    cases fstate with
    | finish | error =>
      exact movesTo_fullSyncReturned hf (by simp [returned, hf, hphase]) (by simp) _ rfl
    | networkError | ok | noInifile | markError =>
      exact movesTo_of_syncing hf (by simp [returned, hf, hphase]) (view_fullSync hf _ _) rfl
  | connect | register | fullsync | report | close | fullSyncConnect | fullSyncNoblockFailed
  | fullSyncBinlogs =>
    simp only [step, hf, hphase]
    exact movesTo_of_syncing hf (by simp [returned, hf, hphase]) rfl rfl

end Sync

section Round

variable (hf : t.fullSync = none)

include hf

lemma view_syncing_of_none : t.view.syncing = false := by
  simp [view, hf]

lemma returned_of_none : t.returned op = none := by
  simp [returned, hf]

lemma movesTo_of_none {r : TrackerClient × Ctxs} (hnames : t.names locked op g = false)
    (h : t.view.Moves locked op g.isFullsyncdone false none r.1.view r.2.isFullsyncdone) :
    t.MovesTo locked op g r := by
  rw [MovesTo, hnames, returned_of_none hf]
  exact h

end Round

lemma names_of_ne (hstate : t.state ≠ .fullsync) : t.names locked op g = false := by
  simp [names, hstate]

section

variable (hf : t.fullSync = none)
include hf

lemma movesTo_connectd (hstate : t.state = .connectd)
    (o : ConnectOutcome) : t.MovesTo locked op g (t.connectd o g) := by
  refine movesTo_of_none hf (names_of_ne (by simp [hstate])) ?_
  cases o with
  | socketFailed => exact .stays
  | refused => exact .leaves .closed (view_syncing_of_none hf) (by simp) (by simp)
  | connected => exact .leaves .registerd (view_syncing_of_none hf) (by simp) (by simp)

lemma movesTo_registerd (hstate : t.state = .registerd) (ok : Bool) :
    t.MovesTo locked (.register ok) g (t.registerd ok g) := by
  refine movesTo_of_none hf (names_of_ne (by simp [hstate])) ?_
  have hidle := view_syncing_of_none hf
  rw [registerd]
  split_ifs with hreg hok
  · exact .rejoins hstate hidle hreg
  · exact .registers hstate hidle (by simpa [view] using hreg) (congrArg _ hok)
  · exact .leaves .closed hidle (by simp) (by simp)

lemma movesTo_fullsync (hrun : g.doRun = true)
    (hstate : t.state = .fullsync) (hlocked : (locked && !t.isLocalHasefullsync) = false)
    (o : FullsyncOutcome) : t.MovesTo locked (.fullsync o) g (t.fullsync o g) := by
  have hidle := view_syncing_of_none hf
  unfold fullsync
  split_ifs with hsynced hlock hdone
  · exact movesTo_of_none hf (by simp [names, hsynced]) (.remembers hstate hidle hsynced)
  · exact movesTo_of_none hf (by simp [names, hlock])
      (.leaves .quited hidle (by simp) (by simp))
  · exact movesTo_of_none hf (by simp [names, hdone]) (.skips hstate hidle hdone)
  · have hsynced : t.isLocalHasefullsync = false := by simpa using hsynced
    have hdone : g.isFullsyncdone = false := by simpa using hdone
    have hlocked : locked = false := by simpa [hsynced] using hlocked
    cases o with
    | lockFailed => exact absurd rfl hlock
    | requestFailed e =>
      refine movesTo_of_none hf (by simp [names]) ?_
      cases e with
      | syncsettingWaiting =>
        -- the thread asks again
        have hview : view { t with state := .fullsync } = t.view := by simp [view, hstate]
        change ThreadView.Moves _ _ _ _ _ _ (view { t with state := .fullsync }) _
        rw [hview]
        exact .stays
      | sendFailed | emptyResponse => exact .leaves .closed hidle (by simp) (by simp)
      | unregister => exact .leaves .registerd hidle (by simp) (by simp)
      | recvFailed => exact .leaves .quited hidle (by simp) (by simp)
    | localBlock =>
      have hnames : t.names locked (.fullsync .localBlock) g = true := by
        simp [names, hf, hrun, hstate, hsynced, hlocked, hdone]
      rw [MovesTo, hnames, returned_of_none hf]
      exact .named hstate hidle rfl
    | master =>
      exact movesTo_of_none hf (by simp [names]) (.begins hstate hidle hsynced hlocked hdone)

lemma movesTo_reporting (hstate : t.state = .reporting)
    (o : ReportOutcome) : t.MovesTo locked op g (t.reporting o g) := by
  refine movesTo_of_none hf (names_of_ne (by simp [hstate])) ?_
  have hidle := view_syncing_of_none hf
  cases o with
  | ok => exact .stays
  | hearbeatFailed => exact .leaves .closed hidle (by simp) (by simp)
  | syncinfoFailed => exact .leaves .quited hidle (by simp) (by simp)
  | blockstateFailed => exact .leaves .closed hidle (by simp) (by simp)

lemma movesTo_round : t.MovesTo locked op g (t.step locked op g) := by
  simp only [step, hf]
  by_cases hrun : g.doRun = true
  · rw [if_pos hrun]
    split
    · exact movesTo_connectd hf ‹_› _
    · exact movesTo_registerd hf ‹_› _
    · rename_i o hstate
      split_ifs with hlocked
      · have hlocked : locked = true := (Bool.and_eq_true_iff.1 hlocked).1
        exact movesTo_of_none hf (by simp [names, hlocked]) .stays
      · exact movesTo_fullsync hf hrun hstate (by simpa using hlocked) o
    · exact movesTo_reporting hf ‹_› _
    · rename_i hstate
      exact movesTo_of_none hf (names_of_ne (by simp [hstate])) .stays
    · rename_i hstate
      exact movesTo_of_none hf (names_of_ne (by simp [hstate]))
        (.leaves .connectd (view_syncing_of_none hf) (by simp) (by simp))
    · rename_i hother _ _ _
      refine movesTo_of_none hf ?_ .stays
      by_contra hnames
      simp only [names, Bool.and_eq_true, decide_eq_true_eq, Bool.not_eq_false] at hnames
      obtain ⟨⟨⟨⟨⟨-, hstate⟩, -⟩, -⟩, -⟩, hop⟩ := hnames
      exact hother _ hstate hop
  · rw [if_neg hrun]
    exact movesTo_of_none hf (by simp [names, hrun]) .stays

end

lemma movesTo_step (locked : Bool) (op : TrackerOp) (g : Ctxs) (t : TrackerClient) :
    t.MovesTo locked op g (t.step locked op g) := by
  rcases hf : t.fullSync with _ | f
  · exact movesTo_round hf
  · cases hphase : f.phase with
    | connecting => exact movesTo_connecting hf hphase
    | binlogs => exact movesTo_binlogs hf hphase
    | data => exact movesTo_data hf hphase

end TrackerClient

/-! ### The server -/

namespace Connections

variable {s : Connections} {i j : ℕ} {t : TrackerClient} {op : TrackerOp}

/-- The thread `i` comes to the state `reporting`. -/
def Enters (s s' : Connections) (i : ℕ) : Prop :=
  (∃ t ∈ s.trackers[i]?, t.state ≠ .reporting) ∧ ∃ t ∈ s'.trackers[i]?, t.state = .reporting

lemma step_tracker (ht : s.trackers[i]? = some t) : s.step (.tracker i op) = { s with
    trackers := s.trackers.set i (t.step (s.locked i) op s.ctxs).1
    ctxs := (t.step (s.locked i) op s.ctxs).2 } := by
  rw [step, ht]

lemma view_of_start {reservedFds maxConnections : UInt32} {n : ℕ}
    (ht : (start reservedFds maxConnections n).trackers[i]? = some t) :
    t.view = ⟨.connectd, false, false, false⟩ := by
  obtain rfl : t = .fresh := (mem_replicate.1 (mem_of_getElem? ht)).2
  rfl

lemma trackers_step_tracker (ht : s.trackers[i]? = some t) {u : TrackerClient}
    (hu : (s.step (.tracker i op)).trackers[j]? = some u) :
    (j = i ∧ u = (t.step (s.locked i) op s.ctxs).1) ∨ (j ≠ i ∧ s.trackers[j]? = some u) := by
  rw [step_tracker ht] at hu
  by_cases hij : j = i
  · subst hij
    have hlt : j < s.trackers.length := (List.getElem?_eq_some_iff.1 ht).1
    rw [getElem?_set_self hlt] at hu
    exact .inl ⟨rfl, (some.inj hu).symm⟩
  · rw [getElem?_set_ne (Ne.symm hij)] at hu
    exact .inr ⟨hij, hu⟩

lemma trackers_step_tracker_self (ht : s.trackers[i]? = some t) :
    (s.step (.tracker i op)).trackers[i]? = some (t.step (s.locked i) op s.ctxs).1 := by
  rw [step_tracker ht]
  exact getElem?_set_self (List.getElem?_eq_some_iff.1 ht).1

lemma step_frame {op : ConnOp} (hop : ∀ i top, op ≠ .tracker i top) :
    (s.step op).trackers = s.trackers ∧
      (s.step op).ctxs.isFullsyncdone = s.ctxs.isFullsyncdone := by
  cases op with
  | accept item | connNew ok | connClose => rw [step]; split_ifs <;> exact ⟨rfl, rfl⟩
  | tracker i top => exact absurd rfl (hop i top)
  | stop => exact ⟨rfl, rfl⟩

lemma syncing_of_not_locked (hlocked : s.locked i = false) (hij : j ≠ i)
    (ht : s.trackers[j]? = some t) : t.view.syncing = false := by
  have hmem : t ∈ s.trackers.eraseIdx i := mem_eraseIdx_iff_getElem?.2 ⟨j, hij, ht⟩
  have hnone := any_eq_false.1 hlocked t hmem
  simpa [TrackerClient.view] using hnone

end Connections

/-- A dataserver, with a record of what its threads have learned. -/
structure Reporters where
  server : Connections
  /-- The threads that are in the case `fullsync` and wait for the lock.  They do not look at
  `do_run_tracker_reported_thread` again before they have it. -/
  waiting : ℕ → Bool
  /-- The trackers that have named this server as the master. -/
  named : ℕ → Bool
  /-- A call of `full_sync_from_master` has returned `F_SYNC_FINISH`. -/
  finished : Bool

inductive ReporterOp where
  | conn (op : ConnOp)
  /-- The thread `i` finds the lock taken. -/
  | wait (i : ℕ)
deriving DecidableEq

namespace Reporters

def start (reservedFds maxConnections : UInt32) (n : ℕ) : Reporters :=
  ⟨.start reservedFds maxConnections n, fun _ => false, fun _ => false, false⟩

/-- The server as the thread `i` has seen it when it entered its round. -/
def seen (s : Reporters) (i : ℕ) : Connections :=
  { s.server with ctxs := { s.server.ctxs with doRun := s.server.ctxs.doRun || s.waiting i } }

/-- A step of the thread `i`. -/
def stepTracker (s : Reporters) (i : ℕ) (top : TrackerOp) (t : TrackerClient) : Reporters :=
  let c := (s.seen i).step (.tracker i top)
  { server := { c with ctxs := { c.ctxs with doRun := s.server.ctxs.doRun && c.ctxs.doRun } }
    waiting := update s.waiting i (s.waiting i && s.server.locked i)
    named := update s.named i
      (s.named i || t.names ((s.seen i).locked i) top (s.seen i).ctxs)
    finished := s.finished || decide (t.returned top = some .finish) }

def step (s : Reporters) : ReporterOp → Reporters
  | .conn (.tracker i top) =>
    match s.server.trackers[i]? with
    | none => s
    | some t => s.stepTracker i top t
  | .conn op => { s with server := s.server.step op }
  | .wait i =>
    match s.server.trackers[i]? with
    | none => s
    | some t =>
      if s.server.ctxs.doRun && decide (t.view = ⟨.fullsync, t.isLocalHaseregistered, false, false⟩)
      then { s with waiting := update s.waiting i true }
      else s

/-- A thread comes to report only if its tracker has named this server, or the files of the
master have been copied. -/
def OnlySynced (s s' : Reporters) : Prop :=
  ∀ i, s.server.Enters s'.server i → s'.named i = true ∨ s'.finished = true

/-- The condition on a step: `full_sync_from_master` does not return `F_SYNC_MARK_ERROR`. -/
def MarkOk (s : Reporters) : ReporterOp → Prop
  | .conn (.tracker i top) => ∀ t ∈ s.server.trackers[i]?, t.returned top ≠ some .markError
  | _ => True

end Reporters

/-! ### The invariant -/

/-- What a thread remembers is what has happened, and a copy is made only if it is needed. -/
structure ThreadView.Fits (named finished : Bool) (v : ThreadView) : Prop where
  synced : v.synced = true → named = true ∨ finished = true
  named : named = true → v.synced = true
  state : v.syncing = true → v.state = .fullsync
  notSynced : v.syncing = true → v.synced = false
  notFinished : v.syncing = true → finished = false

namespace ThreadView

variable {v v' : ThreadView} {named finished names locked done : Bool} {op : TrackerOp}
  {ret : Option FullSyncState}

lemma Fits.of_reporting (registered : Bool) (h : named = true ∨ finished = true) :
    Fits named finished ⟨.reporting, registered, true, false⟩ :=
  ⟨fun _ => h, fun _ => rfl, by simp, by simp, by simp⟩

lemma Moves.done_eq (hm : v.Moves locked op finished names ret v' done) :
    done = (finished || decide (ret = some .finish)) := by
  cases hm with
  | fails fstate hsyncing hfinish hmark => simp [hfinish]
  | stays | leaves | registers | rejoins | remembers | skips | named | begins | finishes
  | unflushed | marks => simp

lemma Moves.syncing (hm : v.Moves locked op finished names ret v' done)
    (hsyncing : v'.syncing = true) : v.syncing = true ∨ locked = false := by
  cases hm with
  | begins hstate hidle hsynced hlocked hdone => exact .inr hlocked
  | stays | leaves | registers | rejoins | remembers | skips | named => exact .inl hsyncing
  | fails | finishes | unflushed | marks => exact absurd hsyncing (by simp)

lemma Fits.moves (h : v.Fits named finished) (hm : v.Moves locked op finished names ret v' done)
    (hret : ret ≠ some .markError) :
    v'.Fits (named || names) (finished || decide (ret = some .finish)) := by
  cases hm with
  | stays => simpa using h
  | leaves state hidle hrep hsync =>
    simp only [Bool.or_false, reduceCtorEq, decide_false]
    exact ⟨h.synced, h.named, by simp [hidle], h.notSynced, h.notFinished⟩
  | registers hstate hidle hnew hop =>
    simp only [Bool.or_false, reduceCtorEq, decide_false]
    exact ⟨h.synced, h.named, by simp, h.notSynced, h.notFinished⟩
  | rejoins hstate hidle hold =>
    simp only [Bool.or_false, reduceCtorEq, decide_false]
    exact ⟨h.synced, h.named, by simp, h.notSynced, h.notFinished⟩
  | remembers hstate hidle hsynced =>
    simp only [Bool.or_false, reduceCtorEq, decide_false]
    exact ⟨h.synced, h.named, by simp [hidle], h.notSynced, h.notFinished⟩
  | skips hstate hidle hdone =>
    rw [hidle]
    exact .of_reporting _ (.inr (by simp [hdone]))
  | named hstate hidle hop =>
    rw [hidle]
    exact .of_reporting _ (.inl (by simp))
  | begins hstate hidle hsynced hlocked hdone =>
    simp only [Bool.or_false, reduceCtorEq, decide_false]
    exact ⟨h.synced, h.named, fun _ => hstate, fun _ => hsynced, fun _ => hdone⟩
  | fails fstate hsyncing hfinish hmark =>
    simp only [Bool.or_false, Option.some.injEq, hfinish, decide_false]
    exact ⟨h.synced, h.named, by simp, by simp, by simp⟩
  | finishes hsyncing => exact .of_reporting _ (.inr (by simp))
  | unflushed hsyncing =>
    refine ⟨fun _ => .inr (by simp), fun hnamed => ?_, by simp, by simp, by simp⟩
    exact h.named (by simpa using hnamed)
  | marks hsyncing => exact absurd rfl hret

/-- A step that brings the thread to report does so with the files, unless it is the one
after `F_SYNC_MARK_ERROR`. -/
lemma Fits.synced_of_moves (h : v.Fits named finished)
    (hm : v.Moves locked op finished names ret v' done) (hret : ret ≠ some .markError)
    (hne : v.state ≠ .reporting) (hrep : v'.state = .reporting) :
    (named || names) = true ∨ (finished || decide (ret = some .finish)) = true := by
  refine (h.moves hm hret).synced ?_
  cases hm with
  | stays => exact absurd hrep hne
  | leaves state hidle hleave hsync => exact absurd hrep hleave
  | registers hstate hidle hnew hop | rejoins hstate hidle hold => exact absurd hrep (by simp)
  | remembers hstate hidle hsynced => exact hsynced
  | skips hstate hidle hdone | named hstate hidle hop => rfl
  | begins hstate hidle hsynced hlocked hdone => exact absurd hrep hne
  | fails fstate hsyncing hfinish hmark => exact absurd hrep (by simp)
  | finishes hsyncing => rfl
  | unflushed hsyncing => exact absurd hrep hne
  | marks hsyncing => exact absurd rfl hret

/-- After `F_SYNC_MARK_ERROR` the thread comes to report, and nothing has happened that
would allow it to. -/
lemma Fits.of_markError (h : v.Fits named finished)
    (hm : v.Moves locked op finished names (some .markError) v' done) :
    v.state ≠ .reporting ∧ v'.state = .reporting ∧ (named || names) = false ∧ finished = false := by
  cases hm with
  | fails fstate hsyncing hfinish hmark => exact absurd rfl hmark
  | marks hsyncing =>
    have hstate : v.state ≠ .reporting := by
      rw [h.state hsyncing]
      simp
    have hnamed : named = false := by
      rw [← Bool.not_eq_true]
      intro hnamed
      have hsynced := (h.named hnamed).symm.trans (h.notSynced hsyncing)
      exact absurd hsynced (by simp)
    exact ⟨hstate, rfl, by simp [hnamed], h.notFinished hsyncing⟩

end ThreadView

namespace Reporters

variable {s : Reporters} {i : ℕ} {t : TrackerClient} {top : TrackerOp}

/-- The invariant of a run in which the mark file does not fail. -/
structure Inv (s : Reporters) : Prop where
  done : s.server.ctxs.isFullsyncdone = s.finished
  fits : ∀ (i : ℕ) (t : TrackerClient), s.server.trackers[i]? = some t →
    t.view.Fits (s.named i) s.finished
  alone : ∀ (i j : ℕ) (t u : TrackerClient), s.server.trackers[i]? = some t → s.server.trackers[j]? = some u →
    t.view.syncing = true → u.view.syncing = true → i = j

lemma inv_start (reservedFds maxConnections : UInt32) (n : ℕ) :
    (start reservedFds maxConnections n).Inv := by
  refine ⟨rfl, fun i t ht => ?_, fun i j t u ht _ hsyncing => ?_⟩
  · rw [view_of_start ht]
    exact ⟨by simp, by simp [start], by simp, by simp, by simp⟩
  · rw [view_of_start ht] at hsyncing
    exact absurd hsyncing (by simp)

lemma step_tracker (ht : s.server.trackers[i]? = some t) :
    s.step (.conn (.tracker i top)) = s.stepTracker i top t := by
  rw [step, ht]

lemma trackers_stepTracker (ht : s.server.trackers[i]? = some t) {j : ℕ} {u : TrackerClient}
    (hu : (s.stepTracker i top t).server.trackers[j]? = some u) :
    (j = i ∧ u = (t.step ((s.seen i).locked i) top (s.seen i).ctxs).1) ∨
      (j ≠ i ∧ s.server.trackers[j]? = some u) :=
  trackers_step_tracker (s := s.seen i) ht hu

lemma step_cases (s : Reporters) (op : ReporterOp) :
    (∃ i top t, op = .conn (.tracker i top) ∧ s.server.trackers[i]? = some t ∧
      s.step op = s.stepTracker i top t) ∨
    (s.MarkOk op ∧ (s.step op).server.trackers = s.server.trackers ∧
      (s.step op).server.ctxs.isFullsyncdone = s.server.ctxs.isFullsyncdone ∧
      (s.step op).named = s.named ∧ (s.step op).finished = s.finished) := by
  cases op with
  | conn op =>
    by_cases hop : ∃ i top, op = .tracker i top
    · obtain ⟨i, top, rfl⟩ := hop
      cases ht : s.server.trackers[i]? with
      | none => exact .inr ⟨by simp [MarkOk, ht], by simp [step, ht]⟩
      | some t => exact .inl ⟨i, top, t, rfl, ht, step_tracker ht⟩
    · have hop : ∀ i top, op ≠ .tracker i top := fun i top heq => hop ⟨i, top, heq⟩
      obtain ⟨htrackers, hdone⟩ := s.server.step_frame hop
      refine .inr ?_
      cases op with
      | tracker i top => exact absurd rfl (hop i top)
      | accept | connNew | connClose | stop => exact ⟨trivial, htrackers, hdone, rfl, rfl⟩
  | wait i =>
    refine .inr ⟨trivial, ?_⟩
    rw [step]
    split
    · exact ⟨rfl, rfl, rfl, rfl⟩
    · split_ifs <;> exact ⟨rfl, rfl, rfl, rfl⟩

lemma Inv.moves (h : s.Inv) (t : TrackerClient) (i : ℕ) (top : TrackerOp) :
    t.view.Moves (s.server.locked i) top s.finished
      (t.names ((s.seen i).locked i) top (s.seen i).ctxs) (t.returned top)
      (t.step ((s.seen i).locked i) top (s.seen i).ctxs).1.view
      (t.step ((s.seen i).locked i) top (s.seen i).ctxs).2.isFullsyncdone := by
  have hm := t.movesTo_step ((s.seen i).locked i) top (s.seen i).ctxs
  rwa [TrackerClient.MovesTo, show (s.seen i).ctxs.isFullsyncdone = s.finished from h.done] at hm

lemma Inv.others_idle (h : s.Inv) (ht : s.server.trackers[i]? = some t)
    (hsyncing : t.view.syncing = true) {j : ℕ} {u : TrackerClient} (hji : j ≠ i)
    (hu : s.server.trackers[j]? = some u) : u.view.syncing = false := by
  rw [← Bool.not_eq_true]
  exact fun hother => hji (h.alone j i u t hu ht hother hsyncing)

lemma Inv.others_idle_step (h : s.Inv) (ht : s.server.trackers[i]? = some t)
    (hsyncing : (t.step ((s.seen i).locked i) top (s.seen i).ctxs).1.view.syncing = true) {j : ℕ}
    {u : TrackerClient} (hji : j ≠ i) (hu : s.server.trackers[j]? = some u) :
    u.view.syncing = false := by
  rcases (h.moves t i top).syncing hsyncing with hbefore | hlocked
  · exact h.others_idle ht hbefore hji hu
  · exact syncing_of_not_locked hlocked hji hu

lemma Inv.stepTracker (h : s.Inv) (ht : s.server.trackers[i]? = some t)
    (hret : t.returned top ≠ some .markError) : (s.stepTracker i top t).Inv := by
  have hm := h.moves t i top
  refine ⟨?_, fun j u hu => ?_, fun j k u w hu hw hsyncing hsyncing' => ?_⟩
  · rw [Reporters.stepTracker, Connections.step_tracker (s := s.seen i) ht]
    exact hm.done_eq
  · simp only [Reporters.stepTracker]
    rcases trackers_stepTracker ht hu with ⟨rfl, rfl⟩ | ⟨hji, hu⟩
    · rw [update_self]
      exact (h.fits j t ht).moves hm hret
    · rw [update_of_ne hji]
      have hfits := h.fits j u hu
      cases hf : t.fullSync with
      | none => simpa [TrackerClient.returned_of_none hf] using hfits
      | some f =>
        -- the other threads are not in the copy that may have ended
        have hidle := h.others_idle ht (by simp [TrackerClient.view, hf]) hji hu
        refine ⟨fun hsynced => ?_, hfits.named, by simp [hidle], by simp [hidle], by simp [hidle]⟩
        exact (hfits.synced hsynced).imp id fun hfinished => by simp [hfinished]
  · rcases trackers_stepTracker ht hu with ⟨hji, rfl⟩ | ⟨hji, hold⟩
    · rcases trackers_stepTracker ht hw with ⟨hki, -⟩ | ⟨hki, hold'⟩
      · exact hji.trans hki.symm
      · exact absurd hsyncing' (by simp [h.others_idle_step ht hsyncing hki hold'])
    · rcases trackers_stepTracker ht hw with ⟨-, rfl⟩ | ⟨hki, hold'⟩
      · exact absurd hsyncing (by simp [h.others_idle_step ht hsyncing' hji hold])
      · exact h.alone j k u w hold hold' hsyncing hsyncing'

lemma Inv.step {op : ReporterOp} (h : s.Inv) (hmark : s.MarkOk op) : (s.step op).Inv := by
  rcases s.step_cases op with ⟨i, top, t, rfl, ht, hstep⟩ | ⟨-, htrackers, hdone, hnamed, hfin⟩
  · rw [hstep]
    exact h.stepTracker ht (hmark t ht)
  · refine ⟨(hdone.trans h.done).trans hfin.symm, ?_, ?_⟩
    · simpa only [htrackers, hnamed, hfin] using h.fits
    · simpa only [htrackers] using h.alone

end Reporters

namespace Connections

variable {c c' : Connections} {i j : ℕ} {t : TrackerClient} {op : TrackerOp}

lemma enters_tracker (ht : c.trackers[i]? = some t)
    (henters : c.Enters (c.step (.tracker i op)) j) :
    j = i ∧ t.state ≠ .reporting ∧ (t.step (c.locked i) op c.ctxs).1.state = .reporting := by
  obtain ⟨⟨u, hu, hne⟩, u', hu', hrep⟩ := henters
  rcases trackers_step_tracker ht hu' with ⟨rfl, rfl⟩ | ⟨hji, hu'⟩
  · obtain rfl : t = u := some.inj (ht.symm.trans hu)
    exact ⟨rfl, hne, hrep⟩
  · obtain rfl : u' = u := some.inj (hu'.symm.trans hu)
    exact absurd hrep hne

lemma not_enters_of_trackers_eq (heq : c'.trackers = c.trackers) : ¬ c.Enters c' j := by
  rintro ⟨⟨u, hu, hne⟩, u', hu', hrep⟩
  rw [heq] at hu'
  obtain rfl : u' = u := some.inj (hu'.symm.trans hu)
  exact hne hrep

end Connections

namespace Reporters

variable {s : Reporters} {i : ℕ} {t : TrackerClient} {top : TrackerOp}

lemma Inv.onlySynced_stepTracker_iff (h : s.Inv) (ht : s.server.trackers[i]? = some t) :
    t.returned top ≠ some .markError ↔ s.OnlySynced (s.stepTracker i top t) := by
  have hm := h.moves t i top
  constructor
  · intro hret j henters
    obtain ⟨rfl, hne, hrep⟩ := enters_tracker (c := s.seen i) ht henters
    simp only [Reporters.stepTracker, update_self]
    exact (h.fits j t ht).synced_of_moves hm hret hne hrep
  · intro honly hret
    rw [hret] at hm
    obtain ⟨hne, hrep, hnamed, hfinished⟩ := (h.fits i t ht).of_markError hm
    have hboth := honly i ⟨⟨t, ht, hne⟩, _, trackers_step_tracker_self (s := s.seen i) ht, hrep⟩
    simp [Reporters.stepTracker, hnamed, hfinished, hret] at hboth

lemma Inv.onlySynced_iff (h : s.Inv) (op : ReporterOp) :
    s.MarkOk op ↔ s.OnlySynced (s.step op) := by
  rcases s.step_cases op with ⟨i, top, t, rfl, ht, hstep⟩ | ⟨hmark, htrackers, -⟩
  · rw [hstep, ← h.onlySynced_stepTracker_iff ht]
    simp [MarkOk, ht]
  · refine iff_of_true hmark fun j henters => ?_
    exact absurd henters (not_enters_of_trackers_eq htrackers)

end Reporters

/-- **Only synced servers report.**  In every run of a dataserver with any number of trackers,
no call of `full_sync_from_master` returns `F_SYNC_MARK_ERROR` if and only if a thread comes
to the state `reporting` only when its tracker has named this server as the master or a call
of `full_sync_from_master` has returned `F_SYNC_FINISH`. -/
theorem only_synced_report_iff (reservedFds maxConnections : UInt32) (n : ℕ)
    (ops : List ReporterOp) :
    Along Reporters.step (fun s op _ => s.MarkOk op)
        (Reporters.start reservedFds maxConnections n) ops ↔
      Along Reporters.step (fun s _ s' => s.OnlySynced s')
        (Reporters.start reservedFds maxConnections n) ops :=
  Along.iff_of_inv' (Reporters.inv_start reservedFds maxConnections n)
    (fun _ op h => h.onlySynced_iff op) fun _ _ h hmark => h.step hmark

/-- The server connects to its tracker and registers, the tracker names a master, and the mark
file of the copy cannot be opened. -/
def markFails : List ReporterOp :=
  [.conn (.tracker 0 (.connect .connected)), .conn (.tracker 0 (.register true)),
    .conn (.tracker 0 (.fullsync .master)), .conn (.tracker 0 (.fullSyncConnect .connected)),
    .conn (.tracker 0 (.fullSyncBinlogs .markError false true))]

/-- The server reports with none of the files of its master. -/
theorem markFails_not_onlySynced :
    ¬ Along Reporters.step (fun s _ s' => s.OnlySynced s') (Reporters.start 5 100 1) markFails := by
  rintro ⟨-, -, -, -, honly, -⟩
  have henters := honly 0 ⟨⟨_, rfl, by decide⟩, _, rfl, by decide⟩
  exact absurd henters (by decide)

end Lfs.Server
