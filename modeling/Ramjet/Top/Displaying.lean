/- digest: The screen shows what the last polls heard, and a selection on it that exists. -/

import Mathlib.Data.List.Induction
import Ramjet.Base.Origins
import Ramjet.Top.Session

set_option autoImplicit false
set_option relaxedAutoImplicit false

namespace Ramjet.Top.Displaying

open Ramjet.Base.Machine
open Ramjet.Base.Origins
open Ramjet.Top.Model
open Ramjet.Top.App
open Ramjet.Top.Session

variable {F : Type} {A : Arithmetic F} {render : Nat → Option Nat → Option Nat}

section Hearing

/-- The polls of a run that succeeded, newest first, each with its time, and the errors of those
that have failed since. -/
structure Heard (F : Type) where
  polls : List (Snapshot F × Nat) := []
  errors : List Text := []

def hear (h : Heard F) (t : Turn F) : Heard F :=
  match t.event with
  | .polled (.ok snapshot) => { polls := (snapshot, t.now) :: h.polls }
  | .polled (.error error) => { h with errors := error :: h.errors }
  | _ => h

def heard (turns : List (Turn F)) : Heard F := turns.foldl hear {}

/-- How long before a poll the one before it was. -/
def gap (now : Nat) (before : List (Snapshot F × Nat)) : Nat :=
  (before.head?.map fun p => now - p.2).getD 0

variable (A)

/-- The rows of the last poll, each with its rates since the one before. -/
def rowsOf : List (Snapshot F × Nat) → List (RouteRow F)
  | [] => []
  | (snapshot, now) :: before =>
      computeRows A snapshot.routes (before.head?.map fun p => baselineOf A p.1.routes)
        (gap now before)

def globalOf : List (Snapshot F × Nat) → GlobalStats F
  | [] => {}
  | (snapshot, now) :: before =>
      computeGlobal A snapshot.metrics (before.head?.map (·.1.metrics)) (gap now before)

/-- The global rate of every poll that had one, oldest first. -/
def ratesSeen : List (Snapshot F × Nat) → List Nat
  | [] => []
  | p :: before => ratesSeen before ++ ((globalOf A (p :: before)).rps.map A.rounded).toList

variable {A}

def connectionOf (h : Heard F) : Connection :=
  match h.errors, h.polls with
  | error :: earlier, polls =>
      .lost error (min (earlier.length + 1) U32_MAX) (polls.head?.map (·.2))
  | [], [] => .connecting
  | [], _ :: _ => .live

/-- The last of some numbers, as many as are remembered. -/
def remembered (rates : List Nat) : List Nat := rates.drop (rates.length - HISTORY_LENGTH)

theorem remember_remembered (rates : List Nat) (rps : Nat) :
    App.remember (remembered rates) rps = remembered (rates ++ [rps]) := by
  unfold App.remember remembered
  rw [List.length_drop, List.length_append, List.length_singleton]
  split
  · rename_i hfull
    rw [List.drop_drop, List.drop_append_of_le_length (by unfold HISTORY_LENGTH at *; omega)]
    congr 2
    unfold HISTORY_LENGTH at *
    omega
  · rename_i hroom
    have hnone : rates.length - HISTORY_LENGTH = 0 := by
      unfold HISTORY_LENGTH at *
      omega
    have hnext : rates.length + 1 - HISTORY_LENGTH = 0 := by
      unfold HISTORY_LENGTH at *
      omega
    rw [hnone, hnext]
    rfl

end Hearing

section Showing

/-- What is on the screen, against what the polls heard. -/
structure Displayed (A : Arithmetic F) (h : Heard F) (app : App F) : Prop where
  snapshot : app.snapshot = h.polls.head?.map (·.1)
  ordered : Ordered A app.sort app.descending app.rows
  rows : app.rows.Perm (rowsOf A h.polls)
  global : app.global = globalOf A h.polls
  history : app.rpsHistory = remembered (ratesSeen A h.polls)
  connection : app.connection = connectionOf h

/-- What the next poll is held against. -/
structure Held (A : Arithmetic F) (h : Heard F) (app : App F) : Prop where
  baseline : app.baseline = h.polls.head?.map fun p => baselineOf A p.1.routes
  previousMetrics : app.previousMetrics = h.polls.head?.map (·.1.metrics)
  lastPollAt : app.lastPollAt = h.polls.head?.map (·.2)
  lastSuccessAt : app.lastSuccessAt = h.polls.head?.map (·.2)

structure Shown (A : Arithmetic F) (h : Heard F) (app : App F) : Prop where
  displayed : Displayed A h app
  held : Held A h app

variable {h : Heard F} {app app' : App F}

theorem Shown.moved (hshown : Shown A h app) (hmoved : app.Moved app') : Shown A h app' := by
  obtain ⟨_, _, _, _, _, _, _, _, rfl⟩ := hmoved
  obtain ⟨⟨hsnapshot, hordered, hrows, hglobal, hhistory, hconnection⟩, ⟨hb, hm, hp, hs⟩⟩ := hshown
  exact ⟨⟨hsnapshot, hordered, hrows, hglobal, hhistory, hconnection⟩, ⟨hb, hm, hp, hs⟩⟩

theorem Shown.asked (hshown : Shown A h app) (question : Option Pending) :
    Shown A h { app with pending := question } := by
  obtain ⟨⟨hsnapshot, hordered, hrows, hglobal, hhistory, hconnection⟩, ⟨hb, hm, hp, hs⟩⟩ := hshown
  exact ⟨⟨hsnapshot, hordered, hrows, hglobal, hhistory, hconnection⟩, ⟨hb, hm, hp, hs⟩⟩

variable [Std.TransCmp A.totalCmp]

theorem Shown.applySort (hshown : Shown A h app) (sort : SortColumn) :
    Shown A h (app.applySort A sort) := by
  obtain ⟨⟨hsnapshot, -, hrows, hglobal, hhistory, hconnection⟩, ⟨hb, hm, hp, hs⟩⟩ := hshown
  unfold App.applySort
  apply Shown.moved _ (App.moved_clampSelection A _)
  split <;>
    exact ⟨⟨hsnapshot, ordered_sortRows .., (List.perm_insertionSort ..).trans hrows, hglobal,
      hhistory, hconnection⟩, ⟨hb, hm, hp, hs⟩⟩

theorem Shown.onKey (hshown : Shown A h app) (key : Key) (now : Nat) :
    Shown A h (app.onKey A key now).1 := by
  obtain ⟨app', question, hsteered, hkey⟩ := app.onKey_steers (A := A) key now
  rw [hkey]
  apply Shown.asked
  cases hsteered with
  | moved hmoved => exact hshown.moved hmoved
  | sorted sort => exact hshown.applySort sort

/-- A poll that succeeds is shown against the one before it. -/
theorem Shown.recordPoll (hshown : Shown A h app) (snapshot : Snapshot F) (now : Nat) :
    Shown A { polls := (snapshot, now) :: h.polls } (app.recordPoll A snapshot now) := by
  obtain ⟨hdisplayed, hheld⟩ := hshown
  have hgap : (app.lastPollAt.map (now - ·)).getD 0 = gap now h.polls := by
    rw [hheld.lastPollAt, gap, Option.map_map]
    rfl
  unfold App.recordPoll
  apply Shown.moved _ (App.moved_clampSelection A _)
  rw [hgap, hheld.baseline, hheld.previousMetrics]
  refine ⟨⟨rfl, ordered_sortRows .., List.perm_insertionSort .., rfl, ?_, rfl⟩,
    ⟨rfl, rfl, rfl, rfl⟩⟩
  dsimp only [ratesSeen, globalOf]
  rw [hdisplayed.history]
  split
  · rename_i rps hrps
    rw [hrps, remember_remembered]
    rfl
  · rename_i hrps
    rw [hrps]
    exact congrArg remembered (List.append_nil _).symm

omit [Std.TransCmp A.totalCmp] in
theorem Shown.recordFailure (hshown : Shown A h app) (error : Text) :
    Shown A { h with errors := error :: h.errors } (app.recordFailure error) := by
  obtain ⟨hdisplayed, hheld⟩ := hshown
  have hconnection : (app.recordFailure error).connection =
      connectionOf { h with errors := error :: h.errors } := by
    unfold App.recordFailure
    dsimp only
    rw [hdisplayed.connection, hheld.lastSuccessAt]
    obtain ⟨polls, errors⟩ := h
    cases errors with
    | nil => cases polls <;> rfl
    | cons earlier errors =>
        have hcount : min (min (errors.length + 1) U32_MAX + 1) U32_MAX =
            min (errors.length + 1 + 1) U32_MAX := by omega
        exact congrArg (Connection.lost error · _) hcount
  exact ⟨⟨hdisplayed.snapshot, hdisplayed.ordered, hdisplayed.rows, hdisplayed.global,
    hdisplayed.history, hconnection⟩, ⟨hheld.baseline, hheld.previousMetrics, hheld.lastPollAt,
    hheld.lastSuccessAt⟩⟩

end Showing

section Turns

variable [Std.TransCmp A.totalCmp] {s s' : Session F} {t : Turn F} {h : Heard F}

theorem shown_fold (hshown : Shown A h s.app) (hfold : fold A s t = some s') :
    Shown A (hear h t) s'.app := by
  unfold hear
  cases folds_of_fold hfold with
  | idle hevent => rwa [hevent]
  | pressed key hevent =>
      rw [hevent, press, Session.app_obey]
      exact hshown.onKey key t.now
  | inputGone hevent => rwa [hevent]
  | polled snapshot hevent =>
      rw [hevent]
      exact hshown.recordPoll snapshot t.now
  | failed error hevent =>
      rw [hevent]
      exact hshown.recordFailure error
  | done index action hevent =>
      rw [hevent, Session.app_startPoll]
      exact hshown.moved (App.moved_notify ..)
  | refused index action error hevent =>
      rw [hevent]
      exact hshown.moved (App.moved_notify ..)
  | ticked hevent => rwa [hevent, Session.app_startPoll]

theorem shown_step (hshown : Shown A h s.app) (hstep : step A render s t = some s') :
    Shown A (hear h t) s'.app := by
  unfold step at hstep
  split at hstep
  · obtain ⟨folded, hfold, rfl⟩ := Option.map_eq_some_iff.mp hstep
    have hdrawn : s.app.Moved (redraw A render s t).app :=
      (s.app.moved_expireNotice t.drawn).trans (moved_draw A render _)
    have hfolded : Shown A (hear h t) folded.app := shown_fold (hshown.moved hdrawn) hfold
    exact hfolded
  · cases hstep

/-- In every state a run of the dashboard reaches, the screen has the rows of the last poll that
succeeded, with their rates since the one before it, in the order asked for and the rows without a
rate last; the last global rates; and how many polls have failed since. -/
theorem displayed_always {readOnly : Bool} {turns : List (Turn F)} {s : Session F}
    (hrun : run (step A render) (start readOnly) turns = some s) :
    Displayed A (heard turns) s.app := by
  refine (follow (fun past s => Shown A (heard past) s.app) ?_ ?_ hrun).displayed
  · exact ⟨⟨rfl, List.Pairwise.nil, List.Perm.nil, rfl, rfl, rfl⟩, ⟨rfl, rfl, rfl, rfl⟩⟩
  · intro past s t s' hshown hstep
    have hheard : heard (past ++ [t]) = hear (heard past) t := List.foldl_concat ..
    rw [hheard]
    exact shown_step hshown hstep

end Turns

section Selections

/-- A selection of a row that exists, but for the first of a timeline that has none. -/
structure Selects (A : Arithmetic F) (app : App F) : Prop where
  routes : ∀ i, app.routesSelected = some i → i < (app.visibleRows A).length
  generations : ∀ i, app.generationsSelected = some i →
    i < app.timeline ∨ app.timeline = 0 ∧ i = 0

variable {app : App F}

theorem lt_of_clamped {len : Nat} {selected : Option Nat} {i : Nat}
    (h : App.clamped len selected = some i) : i < len := by
  unfold App.clamped at h
  split at h
  · split at h
    · cases h
    · split at h
      · cases h
        omega
      · cases h
        omega
  · cases h

/-- Clamped, every selection is of a row that exists. -/
theorem selects_clampSelection (app : App F) : Selects A (app.clampSelection A) :=
  ⟨fun _ h => lt_of_clamped h, fun _ h => Or.inl (lt_of_clamped h)⟩

theorem Selects.select (h : Selects A app) {index : Option Nat}
    (hindex : ∀ i, index = some i → i < app.currentLen A ∨
      app.view = .generations ∧ app.timeline = 0 ∧ i = 0) : Selects A (app.select index) := by
  unfold App.select
  unfold App.currentLen at hindex
  split
  · rename_i hview
    rw [hview] at hindex
    refine ⟨fun i hi => ?_, h.generations⟩
    rcases hindex i hi with hlt | ⟨hother, -⟩
    · exact hlt
    · cases hother
  · rename_i hview
    rw [hview] at hindex
    refine ⟨h.routes, fun i hi => ?_⟩
    rcases hindex i hi with hlt | ⟨-, hempty⟩
    · exact Or.inl hlt
    · exact Or.inr hempty

theorem Selects.moveSelection (h : Selects A app) (delta : Int) :
    Selects A (app.moveSelection A delta) := by
  unfold App.moveSelection
  dsimp only
  split
  · exact h.select fun i hi => by cases hi
  · rename_i hrows
    refine h.select fun i hi => Or.inl ?_
    cases hi
    split
    · split <;> omega
    · omega

theorem Selects.selectFirst (h : Selects A app) : Selects A (app.selectFirst A) := by
  refine h.select fun i hi => Or.inl ?_
  split at hi
  · cases hi
    assumption
  · cases hi

theorem Selects.selectLast (h : Selects A app) : Selects A (app.selectLast A) := by
  refine h.select fun i hi => Or.inl ?_
  split at hi
  · cases hi
    omega
  · cases hi

theorem Selects.requestPin (h : Selects A app) (now : Nat) : Selects A (app.requestPin now) := by
  unfold App.requestPin
  split
  · exact ⟨h.routes, h.generations⟩
  · split
    · exact ⟨h.routes, h.generations⟩
    · split <;> exact ⟨h.routes, h.generations⟩

theorem Selects.requestUnpin (h : Selects A app) (now : Nat) :
    Selects A (app.requestUnpin now) := by
  unfold App.requestUnpin
  split
  · exact ⟨h.routes, h.generations⟩
  · split <;> exact ⟨h.routes, h.generations⟩

theorem Selects.onNormalKey (h : Selects A app) (key : Key) (now : Nat) :
    Selects A (app.onNormalKey A key now).1 := by
  unfold App.onNormalKey
  split
  · exact selects_clampSelection _
  · split
    · exact ⟨h.routes, h.generations⟩
    · exact ⟨h.routes, h.generations⟩
    · split
      · exact ⟨h.routes, h.generations⟩
      · split
        · exact selects_clampSelection _
        · exact h.select fun i hi => by cases hi
    · exact ⟨h.routes, h.generations⟩
    · exact h.moveSelection _
    · exact h.moveSelection _
    · exact h.moveSelection _
    · exact h.moveSelection _
    · exact h.moveSelection _
    · exact h.moveSelection _
    · exact h.selectFirst
    · exact h.selectLast
    · split
      · rename_i hview
        dsimp only
        split
        · have hfirst : Selects A (app.select (some 0)) := by
            refine h.select fun i hi => ?_
            cases hi
            rw [App.currentLen, hview]
            by_cases hempty : app.timeline = 0
            · exact Or.inr ⟨rfl, hempty, rfl⟩
            · exact Or.inl (Nat.pos_of_ne_zero hempty)
          exact ⟨hfirst.routes, hfirst.generations⟩
        · exact ⟨h.routes, h.generations⟩
      · exact h
    · exact h
    · exact h.requestPin now
    · exact h.requestUnpin now
    · exact h

theorem Selects.onKey (h : Selects A app) (key : Key) (now : Nat) :
    Selects A (app.onKey A key now).1 := by
  unfold App.onKey
  split
  · exact ⟨h.routes, h.generations⟩
  · split
    · unfold App.onConfirmation
      split <;> exact ⟨h.routes, h.generations⟩
    · split
      · exact selects_clampSelection _
      · exact h.onNormalKey key now

theorem Selects.expireNotice (h : Selects A app) (now : Nat) :
    Selects A (app.expireNotice now) := by
  unfold App.expireNotice
  split
  · split
    · exact ⟨h.routes, h.generations⟩
    · exact h
  · exact h

/-- Drawing leaves a session alone whose selections exist. -/
theorem Selects.draw_eq (h : Selects A app) (hrender : Renders render) :
    draw A render app = app := by
  have hkept : ∀ {len : Nat} {selected : Option Nat}, (∀ i, selected = some i → i < len) →
      render len selected = selected := by
    intro len selected hlt
    cases selected with
    | none => exact hrender.nothing len
    | some i => exact hrender.existing len i (hlt i rfl)
  unfold draw
  split
  · rw [hkept h.routes]
  · split
    · rfl
    · rename_i hsome
      rw [hkept fun i hi => (h.generations i hi).resolve_right fun hnone => hsome hnone.1]

end Selections

section Loop

variable {s s' : Session F} {t : Turn F}

/-- The selections exist, and the flag tells of the one poll that may be under way. -/
structure Sound (A : Arithmetic F) (s : Session F) : Prop where
  selects : Selects A s.app
  polls : s.polls = if s.polling then 1 else 0

theorem Sound.startPoll (h : Sound A s) : Sound A s.startPoll := by
  refine ⟨by rw [Session.app_startPoll]; exact h.selects, ?_⟩
  have hpolls := h.polls
  unfold Session.startPoll
  by_cases hpolling : s.polling = true
  · rwa [if_pos hpolling]
  · rw [if_neg hpolling] at hpolls ⊢
    exact congrArg (· + 1) hpolls

theorem Sound.obey (h : Sound A s) (command : Option Command) : Sound A (s.obey command) := by
  unfold Session.obey
  split
  · exact ⟨h.selects, h.polls⟩
  · exact h.startPoll
  · exact ⟨h.selects, h.polls⟩
  · exact ⟨h.selects, h.polls⟩
  · exact h

theorem Sound.press (h : Sound A s) (key : Key) (now : Nat) : Sound A (press A s key now) := by
  apply Sound.obey
  exact ⟨h.selects.onKey key now, h.polls⟩

/-- A poll that comes back was the one under way. -/
theorem Sound.returned (h : Sound A s) (hpolls : 0 < s.polls) {app : App F}
    (happ : Selects A app) :
    Sound A { s with polling := false, polls := s.polls - 1, app := app } := by
  refine ⟨happ, ?_⟩
  have hone : s.polls = if s.polling then 1 else 0 := h.polls
  show s.polls - 1 = 0
  split at hone <;> omega

theorem Sound.fold (h : Sound A s) (hfold : fold A s t = some s') : Sound A s' := by
  have hnotified : ∀ text isError, Selects A (s.app.notify text isError t.now) :=
    fun _ _ => ⟨h.selects.routes, h.selects.generations⟩
  cases folds_of_fold hfold with
  | idle => exact h
  | pressed key => exact h.press key t.now
  | inputGone => exact ⟨h.selects, h.polls⟩
  | polled snapshot _ hpolls => exact h.returned hpolls (selects_clampSelection _)
  | failed error _ hpolls =>
      exact h.returned hpolls ⟨h.selects.routes, h.selects.generations⟩
  | done => exact Sound.startPoll ⟨hnotified _ _, h.polls⟩
  | refused => exact ⟨hnotified _ _, h.polls⟩
  | ticked => exact h.startPoll

theorem Sound.step (h : Sound A s) (hrender : Renders render)
    (hstep : step A render s t = some s') : Sound A s' := by
  unfold Session.step at hstep
  split at hstep
  · obtain ⟨folded, hfold, rfl⟩ := Option.map_eq_some_iff.mp hstep
    have hexpired := h.selects.expireNotice t.drawn
    have hdrawn : Sound A (redraw A render s t) := by
      refine ⟨?_, h.polls⟩
      rw [redraw, hexpired.draw_eq hrender]
      exact hexpired
    have hfolded := hdrawn.fold hfold
    exact ⟨hfolded.selects, hfolded.polls⟩
  · cases hstep

/-- In every state a run of the dashboard reaches, what is selected exists (but for the first
place of an empty timeline), so that drawing never moves it, and one poll at most is under way. -/
theorem sound_always {readOnly : Bool} {turns : List (Turn F)} {s : Session F}
    (hrender : Renders render) (hrun : run (step A render) (start readOnly) turns = some s) :
    Sound A s ∧ draw A render s.app = s.app := by
  have hsound : Sound A s := by
    refine invariant_run (fun _ _ _ h hstep => Sound.step h hrender hstep) ?_ hrun
    exact Sound.startPoll ⟨⟨nofun, nofun⟩, rfl⟩
  exact ⟨hsound, hsound.selects.draw_eq hrender⟩

end Loop

section Examples

/-- A route that has answered some requests in all. -/
def served (host : Text) (requests : Nat) : RouteEntry Int where
  host := host
  path := ['/']
  pathType := .prefixed
  backend := ['b']
  endpoints := 1
  requestsTotal := requests
  errors5xxTotal := 0
  upstreamLatencyMsSum := 0
  upstreamLatencyCount := 0

/-- A poll of two routes and the requests they have answered in all. -/
def scraped (a b : Nat) : Event Int :=
  .polled (.ok
    { pinned := none, generations := [⟨1⟩], routes := [served ['a'] a, served ['b'] b]
      metrics := { requestsTotal := a + b, latencySumSeconds := 0 } })

/-- Two polls two seconds apart and a third that fails, while the table is scanned; then the
second key reverses the order. -/
def watched : List (Turn Int) :=
  [⟨0, 1000000000, scraped 10 10⟩, ⟨1000000000, 1500000000, .tick⟩,
    ⟨1500000000, 3000000000, scraped 14 30⟩, ⟨3000000000, 3000000000, .key (some .end)⟩,
    ⟨3000000000, 3500000000, .tick⟩, ⟨3500000000, 4000000000, .polled (.error ['!'])⟩,
    ⟨4000000000, 4000000000, .key (some (.char 'r'))⟩]

/-- What a run of the dashboard leaves of the rates, the selection and the connection. -/
def seen (s : Session Int) : List (Text × Option Int) × Option Nat × List Nat × Connection :=
  (s.app.rows.map fun row => (row.host, row.rps), s.app.routesSelected, s.app.rpsHistory,
    s.app.connection)

theorem displayed_of_watched :
    ∃ s, run (step whole widget) (start false) watched = some s ∧
      seen s = ([(['a'], some 2), (['b'], some 10)], some 1, [12],
        .lost ['!'] 1 (some 3000000000)) ∧
      Displayed whole (heard watched) s.app := by
  have hseen : (run (step whole widget) (start false) watched).map seen =
      some ([(['a'], some 2), (['b'], some 10)], some 1, [12],
        .lost ['!'] 1 (some 3000000000)) := by
    decide +kernel
  obtain ⟨s, hrun, hseen⟩ := Option.map_eq_some_iff.mp hseen
  have : Std.TransCmp whole.totalCmp := inferInstanceAs (Std.TransCmp (compare : Int → _ → _))
  exact ⟨s, hrun, hseen, displayed_always hrun⟩

theorem sound_of_watched :
    ∃ s, run (step whole widget) (start false) watched = some s ∧
      Sound whole s ∧ draw whole widget s.app = s.app := by
  have hrun : (run (step whole widget) (start false) watched).isSome = true := by decide +kernel
  obtain ⟨s, hrun⟩ := Option.isSome_iff_exists.mp hrun
  exact ⟨s, hrun, sound_always renders_widget hrun⟩

end Examples

end Ramjet.Top.Displaying
