/- digest: The session of the dashboard: what polls leave in it, and what keys do to it. -/

import Ramjet.Top.Model

set_option autoImplicit false
set_option relaxedAutoImplicit false

namespace Ramjet.Top.App

open Ramjet.Top.Prom
open Ramjet.Top.Model

/-- How many polls of the global rate are remembered. -/
def HISTORY_LENGTH : Nat := 60

def U32_MAX : Nat := 4294967295

/-- How long a message stays, in nanoseconds. -/
def NOTICE_TIME : Nat := 5000000000

inductive View where
  | routes
  | generations
  deriving DecidableEq

def View.toggled : View → View
  | .routes => .generations
  | .generations => .routes

/-- Whether the admin port is answering. -/
inductive Connection where
  | connecting
  | live
  | lost (error : Text) (failures : Nat) (lastSuccess : Option Nat)
  deriving DecidableEq

/-- What the event loop has to go and do. -/
inductive Command where
  | quit
  | refresh
  | pin (generation : Nat)
  | unpin
  deriving DecidableEq

/-- A command that asks nothing of the server. -/
def Command.isLocal : Option Command → Bool
  | some (.pin _) => false
  | some .unpin => false
  | _ => true

/-- An action waiting on a confirmation. -/
inductive Pending where
  | pin (generation : Nat)
  | unpin
  deriving DecidableEq

/-- The question on the screen. -/
def Pending.prompt : Pending → Text
  | .pin generation =>
      "PIN traffic to generation ".toList ++ (Nat.toDigits 10 generation ++
        "? This freezes the data plane until released.  [y/N]".toList)
  | .unpin => "RELEASE the pin and resume the newest published generation?  [y/N]".toList

def Pending.command : Pending → Command
  | .pin generation => .pin generation
  | .unpin => .unpin

structure Notice where
  text : Text
  isError : Bool
  expiresAt : Nat

/-- An entry of the timeline, by its number. -/
structure GenerationEntry where
  generation : Nat

/-- What one poll read. -/
structure Snapshot (F : Type) where
  pinned : Option Nat
  /-- The timeline, newest first. -/
  generations : List GenerationEntry
  routes : List (RouteEntry F)
  metrics : MetricsSnapshot F

/-- The generation that is held: as the admin port says, or else the metrics. -/
def Snapshot.held {F : Type} (snapshot : Snapshot F) : Option Nat :=
  snapshot.pinned.or snapshot.metrics.pinned

/-- A keypress. -/
inductive Key where
  | char (c : Char)
  | backspace
  | enter
  | escape
  | tab
  | up
  | down
  | pageUp
  | pageDown
  | home
  | «end»
  | ctrlC
  deriving DecidableEq

/-- The whole session. -/
structure App (F : Type) where
  readOnly : Bool
  sort : SortColumn := .rps
  descending : Bool := SortColumn.rps.defaultsToDescending
  filter : Text := []
  editingFilter : Bool := false
  view : View := .routes
  expanded : Bool := false
  snapshot : Option (Snapshot F) := none
  rows : List (RouteRow F) := []
  global : GlobalStats F := {}
  rpsHistory : List Nat := []
  connection : Connection := .connecting
  routesSelected : Option Nat := none
  generationsSelected : Option Nat := none
  pending : Option Pending := none
  notice : Option Notice := none
  shouldQuit : Bool := false
  baseline : Option (CounterBaseline F) := none
  previousMetrics : Option (MetricsSnapshot F) := none
  lastPollAt : Option Nat := none
  lastSuccessAt : Option Nat := none

namespace App

variable {F : Type} (A : Arithmetic F)

section Selecting

def visibleRows (app : App F) : List (RouteRow F) :=
  app.rows.filter fun row => row.matches A app.filter

/-- How long the timeline is. -/
def timeline (app : App F) : Nat :=
  match app.snapshot with
  | some snapshot => snapshot.generations.length
  | none => 0

def selectedGeneration (app : App F) : Option GenerationEntry := do
  let snapshot ← app.snapshot
  let index ← app.generationsSelected
  snapshot.generations[index]?

/-- A selection kept on a row that exists. -/
def clamped (len : Nat) : Option Nat → Option Nat
  | some index => if len = 0 then none else if len ≤ index then some (len - 1) else some index
  | none => none

def clampSelection (app : App F) : App F :=
  { app with
    routesSelected := clamped (app.visibleRows A).length app.routesSelected
    generationsSelected := clamped app.timeline app.generationsSelected }

def currentLen (app : App F) : Nat :=
  match app.view with
  | .routes => (app.visibleRows A).length
  | .generations => app.timeline

def select (app : App F) (index : Option Nat) : App F :=
  match app.view with
  | .routes => { app with routesSelected := index }
  | .generations => { app with generationsSelected := index }

def selected (app : App F) : Option Nat :=
  match app.view with
  | .routes => app.routesSelected
  | .generations => app.generationsSelected

/-- Moves the selection, which stops at both ends. -/
def moveSelection (app : App F) (delta : Int) : App F :=
  let len := app.currentLen A
  if len = 0 then app.select none
  else
    let last : Int := len - 1
    let next :=
      match app.selected with
      | none => if 0 ≤ delta then 0 else last
      | some current => max 0 (min (current + delta) last)
    app.select (some next.toNat)

def selectFirst (app : App F) : App F :=
  app.select (if 0 < app.currentLen A then some 0 else none)

def selectLast (app : App F) : App F :=
  let len := app.currentLen A
  app.select (if 0 < len then some (len - 1) else none)

/-- A sort key selects its column, and reverses the one that is selected. -/
def applySort (app : App F) (sort : SortColumn) : App F :=
  let app :=
    if app.sort = sort then { app with descending := !app.descending }
    else { app with sort := sort, descending := sort.defaultsToDescending }
  clampSelection A { app with rows := sortRows A app.rows app.sort app.descending }

end Selecting

section Polling

/-- The rates with one more, of which the oldest is forgotten. -/
def remember (history : List Nat) (rps : Nat) : List Nat :=
  (if history.length = HISTORY_LENGTH then history.drop 1 else history) ++ [rps]

/-- Folds a successful poll into the session. -/
def recordPoll (app : App F) (snapshot : Snapshot F) (now : Nat) : App F :=
  let elapsed := (app.lastPollAt.map (now - ·)).getD 0
  let global := computeGlobal A snapshot.metrics app.previousMetrics elapsed
  clampSelection A
    { app with
      rows :=
        sortRows A (computeRows A snapshot.routes app.baseline elapsed) app.sort app.descending
      global := global
      rpsHistory :=
        match global.rps with
        | some rps => remember app.rpsHistory (A.rounded rps)
        | none => app.rpsHistory
      baseline := some (baselineOf A snapshot.routes)
      previousMetrics := some snapshot.metrics
      lastPollAt := some now
      lastSuccessAt := some now
      snapshot := some snapshot
      connection := .live }

/-- Folds a failed poll into the session: what was read before stays. -/
def recordFailure (app : App F) (error : Text) : App F :=
  let failures :=
    match app.connection with
    | .lost _ failures _ => min (failures + 1) U32_MAX
    | _ => 1
  { app with connection := .lost error failures app.lastSuccessAt }

end Polling

section Keys

def notify (app : App F) (text : Text) (isError : Bool) (now : Nat) : App F :=
  { app with notice := some { text := text, isError := isError, expiresAt := now + NOTICE_TIME } }

def expireNotice (app : App F) (now : Nat) : App F :=
  match app.notice with
  | some notice => if notice.expiresAt ≤ now then { app with notice := none } else app
  | none => app

/-- Keys while a question waits: nothing but a `y` confirms it. -/
def onConfirmation (app : App F) (key : Key) (pending : Pending) (now : Nat) :
    App F × Option Command :=
  let app := { app with pending := none }
  match key with
  | .char 'y' | .char 'Y' => (app, some pending.command)
  | _ => (app.notify "cancelled".toList false now, none)

/-- Keys while the filter box has the keyboard. -/
def onFilterKey (app : App F) (key : Key) : App F :=
  clampSelection A <|
    match key with
    | .char c => { app with filter := app.filter ++ [c] }
    | .backspace => { app with filter := app.filter.dropLast }
    | .enter => { app with editingFilter := false }
    | .escape => { app with filter := [], editingFilter := false }
    | _ => app

/-- Asks for confirmation to pin, if pinning is allowed here. -/
def requestPin (app : App F) (now : Nat) : App F :=
  if app.readOnly then app.notify "read-only: pin refused".toList true now
  else if app.view ≠ .generations then
    app.notify "pin: switch to the generations panel (Tab)".toList true now
  else
    match app.selectedGeneration with
    | some entry => { app with pending := some (.pin entry.generation) }
    | none => app.notify "pin: select a generation first".toList true now

/-- Asks for confirmation to release the pin, if there is one. -/
def requestUnpin (app : App F) (now : Nat) : App F :=
  if app.readOnly then app.notify "read-only: unpin refused".toList true now
  else if (app.snapshot.bind (·.held)).isNone then
    app.notify "nothing is pinned".toList true now
  else { app with pending := some .unpin }

def sortOf (app : App F) (key : Key) : Option SortColumn :=
  match key with
  | .char c => if app.view = .routes then SortColumn.fromKey c else none
  | _ => none

/-- Keys in the ordinary state; sort keys go first, where the table is in front. -/
def onNormalKey (app : App F) (key : Key) (now : Nat) : App F × Option Command :=
  match app.sortOf key with
  | some sort => (app.applySort A sort, none)
  | none =>
      match key with
      | .char 'q' => ({ app with shouldQuit := true }, some .quit)
      | .char '/' => ({ app with editingFilter := true }, none)
      | .escape =>
          if app.expanded then ({ app with expanded := false }, none)
          else if !app.filter.isEmpty then (clampSelection A { app with filter := [] }, none)
          else (app.select none, none)
      | .tab => ({ app with view := app.view.toggled, expanded := false }, none)
      | .up | .char 'k' => (app.moveSelection A (-1), none)
      | .down | .char 'j' => (app.moveSelection A 1, none)
      | .pageUp => (app.moveSelection A (-10), none)
      | .pageDown => (app.moveSelection A 10, none)
      | .home => (app.selectFirst A, none)
      | .end => (app.selectLast A, none)
      | .enter =>
          if app.view = .generations then
            -- The newest generation, also where the timeline has none yet.
            let app := if app.generationsSelected.isNone then app.select (some 0) else app
            ({ app with expanded := !app.expanded }, none)
          else (app, none)
      | .char 'g' => (app, some .refresh)
      | .char 'p' => (app.requestPin now, none)
      | .char 'u' => (app.requestUnpin now, none)
      | _ => (app, none)

/-- Handles one keypress. -/
def onKey (app : App F) (key : Key) (now : Nat) : App F × Option Command :=
  if key = .ctrlC then ({ app with shouldQuit := true }, some .quit)
  else
    match app.pending with
    | some pending => app.onConfirmation key pending now
    | none =>
        if app.editingFilter then (app.onFilterKey A key, none) else app.onNormalKey A key now

end Keys

section Moving

/-- A change of where the operator is on the screen, and of nothing else. -/
def Moved (app app' : App F) : Prop :=
  ∃ filter editingFilter view expanded routes generations notice shouldQuit,
    app' =
      { app with
        filter := filter, editingFilter := editingFilter, view := view, expanded := expanded
        routesSelected := routes, generationsSelected := generations, notice := notice
        shouldQuit := shouldQuit }

theorem Moved.refl (app : App F) : Moved app app := ⟨_, _, _, _, _, _, _, _, rfl⟩

theorem Moved.trans {app app' app'' : App F} (h : Moved app app') (h' : Moved app' app'') :
    Moved app app'' := by
  obtain ⟨_, _, _, _, _, _, _, _, rfl⟩ := h
  obtain ⟨_, _, _, _, _, _, _, _, rfl⟩ := h'
  exact ⟨_, _, _, _, _, _, _, _, rfl⟩

theorem moved_select (app : App F) (index : Option Nat) : Moved app (app.select index) := by
  unfold select
  split <;> exact ⟨_, _, _, _, _, _, _, _, rfl⟩

theorem moved_clampSelection (app : App F) : Moved app (app.clampSelection A) :=
  ⟨_, _, _, _, _, _, _, _, rfl⟩

theorem moved_moveSelection (app : App F) (delta : Int) :
    Moved app (app.moveSelection A delta) := by
  unfold moveSelection
  dsimp only
  split <;> exact moved_select ..

theorem moved_expireNotice (app : App F) (now : Nat) : Moved app (app.expireNotice now) := by
  unfold expireNotice
  split
  · split
    · exact ⟨_, _, _, _, _, _, _, _, rfl⟩
    · exact Moved.refl app
  · exact Moved.refl app

theorem moved_notify (app : App F) (text : Text) (isError : Bool) (now : Nat) :
    Moved app (app.notify text isError now) := ⟨_, _, _, _, _, _, _, _, rfl⟩

theorem moved_edit (app : App F) (filter : Text) (editingFilter : Bool) :
    Moved app { app with filter := filter, editingFilter := editingFilter } :=
  ⟨_, _, _, _, _, _, _, _, rfl⟩

theorem moved_onFilterKey (app : App F) (key : Key) : Moved app (app.onFilterKey A key) := by
  unfold onFilterKey
  refine Moved.trans ?_ (moved_clampSelection A _)
  cases key with
  | char c => exact moved_edit ..
  | backspace => exact moved_edit ..
  | enter => exact moved_edit ..
  | escape => exact moved_edit ..
  | _ => exact Moved.refl app

variable {A}

/-- What a key of the ordinary state does where it asks nothing. -/
inductive Steered (A : Arithmetic F) (app : App F) : App F → Prop
  | moved {app' : App F} (h : Moved app app') : Steered A app app'
  | sorted (sort : SortColumn) : Steered A app (app.applySort A sort)

/-- The keys that ask nothing of the operator ask nothing of the server either. -/
theorem onNormalKey_steers (app : App F) {key : Key} (now : Nat) (hp : key ≠ .char 'p')
    (hu : key ≠ .char 'u') :
    Command.isLocal (app.onNormalKey A key now).2 = true ∧
      Steered A app (app.onNormalKey A key now).1 := by
  unfold onNormalKey
  split
  · exact ⟨rfl, .sorted _⟩
  · split
    · exact ⟨rfl, .moved ⟨_, _, _, _, _, _, _, _, rfl⟩⟩
    · exact ⟨rfl, .moved ⟨_, _, _, _, _, _, _, _, rfl⟩⟩
    · split
      · exact ⟨rfl, .moved ⟨_, _, _, _, _, _, _, _, rfl⟩⟩
      · split
        · exact ⟨rfl, .moved ⟨_, _, _, _, _, _, _, _, rfl⟩⟩
        · exact ⟨rfl, .moved (moved_select ..)⟩
    · exact ⟨rfl, .moved ⟨_, _, _, _, _, _, _, _, rfl⟩⟩
    · exact ⟨rfl, .moved (moved_moveSelection ..)⟩
    · exact ⟨rfl, .moved (moved_moveSelection ..)⟩
    · exact ⟨rfl, .moved (moved_moveSelection ..)⟩
    · exact ⟨rfl, .moved (moved_moveSelection ..)⟩
    · exact ⟨rfl, .moved (moved_moveSelection ..)⟩
    · exact ⟨rfl, .moved (moved_moveSelection ..)⟩
    · exact ⟨rfl, .moved (moved_select ..)⟩
    · exact ⟨rfl, .moved (moved_select ..)⟩
    · split
      · dsimp only
        refine ⟨rfl, .moved ?_⟩
        split
        · exact (moved_select app (some 0)).trans ⟨_, _, _, _, _, _, _, _, rfl⟩
        · exact ⟨_, _, _, _, _, _, _, _, rfl⟩
      · exact ⟨rfl, .moved (Moved.refl app)⟩
    · exact ⟨rfl, .moved (Moved.refl app)⟩
    · exact absurd rfl hp
    · exact absurd rfl hu
    · exact ⟨rfl, .moved (Moved.refl app)⟩

theorem onNormalKey_p (app : App F) (now : Nat) :
    app.onNormalKey A (.char 'p') now = (app.requestPin now, none) := by
  unfold onNormalKey sortOf
  cases app.view <;> rfl

theorem onNormalKey_u (app : App F) (now : Nat) :
    app.onNormalKey A (.char 'u') now = (app.requestUnpin now, none) := by
  unfold onNormalKey sortOf
  cases app.view <;> rfl

/-- A request is a question put, or a message why not. -/
theorem moved_requestPin (app : App F) (now : Nat) :
    Moved app (app.requestPin now) ∨
      ∃ question, app.requestPin now = { app with pending := question } := by
  unfold requestPin
  split
  · exact Or.inl (moved_notify ..)
  · split
    · exact Or.inl (moved_notify ..)
    · split
      · exact Or.inr ⟨_, rfl⟩
      · exact Or.inl (moved_notify ..)

theorem moved_requestUnpin (app : App F) (now : Nat) :
    Moved app (app.requestUnpin now) ∨
      ∃ question, app.requestUnpin now = { app with pending := question } := by
  unfold requestUnpin
  split
  · exact Or.inl (moved_notify ..)
  · split
    · exact Or.inl (moved_notify ..)
    · exact Or.inr ⟨_, rfl⟩

theorem onKey_steers (app : App F) (key : Key) (now : Nat) :
    ∃ app' question, Steered A app app' ∧
      (app.onKey A key now).1 = { app' with pending := question } := by
  have hmoved : ∀ {app'}, Moved app app' → ∃ app'' question, Steered A app app'' ∧
      app' = { app'' with pending := question } := fun {app'} h => ⟨app', _, .moved h, rfl⟩
  have hasked : ∀ {app'}, (Moved app app' ∨ ∃ question, app' = { app with pending := question }) →
      ∃ app'' question, Steered A app app'' ∧ app' = { app'' with pending := question } := by
    rintro app' (h | ⟨question, rfl⟩)
    · exact hmoved h
    · exact ⟨app, question, .moved (Moved.refl app), rfl⟩
  unfold onKey
  split
  · exact hmoved ⟨_, _, _, _, _, _, _, _, rfl⟩
  · split
    · unfold onConfirmation
      split
      · exact ⟨app, none, .moved (Moved.refl app), rfl⟩
      · exact ⟨app, none, .moved (Moved.refl app), rfl⟩
      · exact ⟨app.notify "cancelled".toList false now, none, .moved (moved_notify ..), rfl⟩
    · split
      · exact hmoved (moved_onFilterKey ..)
      · by_cases hp : key = .char 'p'
        · rw [hp, onNormalKey_p]
          exact hasked (moved_requestPin app now)
        · by_cases hu : key = .char 'u'
          · rw [hu, onNormalKey_u]
            exact hasked (moved_requestUnpin app now)
          · exact ⟨_, _, (onNormalKey_steers app now hp hu).2, rfl⟩

end Moving

end App

end Ramjet.Top.App
