/- digest: The event loop of the dashboard: keys, polls, actions and ticks in any order. -/

import Ramjet.Base.Machine
import Ramjet.Top.App

set_option autoImplicit false
set_option relaxedAutoImplicit false

namespace Ramjet.Top.Session

open Ramjet.Top.Model
open Ramjet.Top.App

section Drawing

variable {F : Type} (A : Arithmetic F)

/-- Drawing hands the selection of the panel in front to the widget, with the number of its rows;
an empty timeline is drawn without one. -/
def draw (render : Nat → Option Nat → Option Nat) (app : App F) : App F :=
  match app.view with
  | .routes =>
      { app with routesSelected := render (app.visibleRows A).length app.routesSelected }
  | .generations =>
      if app.timeline = 0 then app
      else { app with generationsSelected := render app.timeline app.generationsSelected }

theorem moved_draw (render : Nat → Option Nat → Option Nat) (app : App F) :
    app.Moved (draw A render app) := by
  unfold draw
  split
  · exact ⟨_, _, _, _, _, _, _, _, rfl⟩
  · split
    · exact App.Moved.refl app
    · exact ⟨_, _, _, _, _, _, _, _, rfl⟩

/-- What the widgets promise: a selection of a row that exists is not moved. -/
structure Renders (render : Nat → Option Nat → Option Nat) : Prop where
  nothing : ∀ n, render n none = none
  existing : ∀ n i, i < n → render n (some i) = some i

/-- A widget that brings a selection past its last row back to it. -/
def widget (rows : Nat) (selected : Option Nat) : Option Nat :=
  if rows = 0 then none else selected.map (min · (rows - 1))

theorem renders_widget : Renders widget where
  nothing n := by
    unfold widget
    split <;> rfl
  existing n i h := by
    unfold widget
    rw [if_neg (by omega), Option.map_some, Nat.min_eq_left (by omega)]

end Drawing

/-- What a background task asks of the server: to pin a generation, or to release the pin. -/
abbrev Action := Option Nat

def Action.done : Action → Text
  | some generation => "pinned to generation ".toList ++ Nat.toDigits 10 generation
  | none => "pin released".toList

def Action.failed (action : Action) (error : Text) : Text :=
  (if action.isSome then "pin failed — ".toList else "unpin failed — ".toList) ++ error

/-- What ends the wait of one turn of the loop. -/
inductive Event (F : Type) where
  /-- A terminal event, where it is a key that counts. -/
  | key (key : Option Key)
  | inputGone
  | polled (result : Except Text (Snapshot F))
  | acted (index : Nat) (error : Option Text)
  | tick

/-- One turn: when it drew, and what it then waited for. -/
structure Turn (F : Type) where
  drawn : Nat
  now : Nat
  event : Event F

def Turn.key? {F : Type} (t : Turn F) : Option Key :=
  match t.event with
  | .key key => key
  | _ => none

/-- The loop with its background tasks. -/
structure Session (F : Type) where
  app : App F
  polling : Bool := false
  /-- The polls under way. -/
  polls : Nat := 0
  /-- The actions under way. -/
  acting : List Action := []
  /-- Every action asked of the server so far. -/
  sent : List Action := []
  running : Bool := true

namespace Session

variable {F : Type}

def startPoll (s : Session F) : Session F :=
  if s.polling then s else { s with polling := true, polls := s.polls + 1 }

def spawnAction (s : Session F) (action : Action) : Session F :=
  { s with acting := s.acting ++ [action], sent := s.sent ++ [action] }

/-- Carries out what a key asked for. -/
def obey (s : Session F) : Option Command → Session F
  | some .quit => { s with running := false }
  | some .refresh => s.startPoll
  | some (.pin generation) => s.spawnAction (some generation)
  | some .unpin => s.spawnAction none
  | none => s

@[simp] theorem app_startPoll (s : Session F) : s.startPoll.app = s.app := by
  unfold startPoll
  split <;> rfl

@[simp] theorem sent_startPoll (s : Session F) : s.startPoll.sent = s.sent := by
  unfold startPoll
  split <;> rfl

@[simp] theorem app_obey (s : Session F) (command : Option Command) :
    (s.obey command).app = s.app := by
  unfold obey
  split
  · rfl
  · exact app_startPoll s
  · rfl
  · rfl
  · rfl

end Session

section Loop

variable {F : Type} (A : Arithmetic F) (render : Nat → Option Nat → Option Nat)

/-- A session that has begun its first poll. -/
def start (readOnly : Bool) : Session F := Session.startPoll { app := { readOnly := readOnly } }

/-- The top of a turn: old messages go, and the frame is drawn. -/
def redraw (s : Session F) (t : Turn F) : Session F :=
  { s with app := draw A render (s.app.expireNotice t.drawn) }

/-- A keypress, and what it asks of the loop. -/
def press (s : Session F) (key : Key) (now : Nat) : Session F :=
  let pressed := s.app.onKey A key now
  { s with app := pressed.1 }.obey pressed.2

/-- One event folded in, absent where no task could have reported it. -/
def fold (s : Session F) (t : Turn F) : Option (Session F) :=
  match t.event with
  | .key none => some s
  | .key (some key) => some (press A s key t.now)
  | .inputGone => some { s with running := false }
  | .polled result =>
      if 0 < s.polls then
        some
          { s with
            polling := false
            polls := s.polls - 1
            app :=
              match result with
              | .ok snapshot => s.app.recordPoll A snapshot t.now
              | .error error => s.app.recordFailure error }
      else none
  | .acted index error =>
      match s.acting[index]? with
      | some action =>
          let s := { s with acting := s.acting.eraseIdx index }
          match error with
          | none =>
              -- The pin shows only on the next poll, which is not waited for.
              some ({ s with app := s.app.notify action.done false t.now }.startPoll)
          | some error => some { s with app := s.app.notify (action.failed error) true t.now }
      | none => none
  | .tick => some s.startPoll

/-- What one event does to the session, case by case. -/
inductive Folds (s : Session F) (t : Turn F) : Session F → Prop
  | idle (hevent : t.event = .key none) : Folds s t s
  | pressed (key : Key) (hevent : t.event = .key (some key)) : Folds s t (press A s key t.now)
  | inputGone (hevent : t.event = .inputGone) : Folds s t { s with running := false }
  | polled (snapshot : Snapshot F) (hevent : t.event = .polled (.ok snapshot))
      (hpolls : 0 < s.polls) :
      Folds s t
        { s with
          polling := false, polls := s.polls - 1, app := s.app.recordPoll A snapshot t.now }
  | failed (error : Text) (hevent : t.event = .polled (.error error)) (hpolls : 0 < s.polls) :
      Folds s t
        { s with polling := false, polls := s.polls - 1, app := s.app.recordFailure error }
  | done (index : Nat) (action : Action) (hevent : t.event = .acted index none)
      (hacting : s.acting[index]? = some action) :
      Folds s t
        { s with
          acting := s.acting.eraseIdx index
          app := s.app.notify action.done false t.now }.startPoll
  | refused (index : Nat) (action : Action) (error : Text)
      (hevent : t.event = .acted index (some error)) (hacting : s.acting[index]? = some action) :
      Folds s t
        { s with
          acting := s.acting.eraseIdx index
          app := s.app.notify (action.failed error) true t.now }
  | ticked (hevent : t.event = .tick) : Folds s t s.startPoll

variable {A} in
theorem folds_of_fold {s s' : Session F} {t : Turn F} (h : fold A s t = some s') :
    Folds A s t s' := by
  unfold fold at h
  split at h
  · rename_i hevent
    cases h
    exact .idle hevent
  · rename_i key hevent
    obtain rfl := Option.some.inj h
    exact .pressed key hevent
  · rename_i hevent
    cases h
    exact .inputGone hevent
  · rename_i result hevent
    split at h
    · rename_i hpolls
      cases h
      cases result with
      | ok snapshot => exact .polled snapshot hevent hpolls
      | error error => exact .failed error hevent hpolls
    · cases h
  · rename_i index error hevent
    split at h
    · rename_i action hacting
      cases error with
      | none =>
          cases h
          exact .done index action hevent hacting
      | some error =>
          cases h
          exact .refused index action error hevent hacting
    · cases h
  · rename_i hevent
    cases h
    exact .ticked hevent

/-- One turn of the loop; a session that was told to quit takes none. -/
def step (s : Session F) (t : Turn F) : Option (Session F) :=
  if s.running then
    (fold A (redraw A render s t) t).map fun s =>
      { s with running := s.running && !s.app.shouldQuit }
  else none

end Loop

end Ramjet.Top.Session
