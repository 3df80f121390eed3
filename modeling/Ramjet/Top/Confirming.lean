/- digest: The server is asked just for what was asked and confirmed at the keyboard. -/

import Mathlib.Data.List.Induction
import Ramjet.Base.Origins
import Ramjet.Top.Session

set_option autoImplicit false
set_option relaxedAutoImplicit false

namespace Ramjet.Top.Confirming

open Ramjet.Base.Machine
open Ramjet.Base.Origins
open Ramjet.Top.Model
open Ramjet.Top.App
open Ramjet.Top.Session

variable {F : Type} {A : Arithmetic F} {render : Nat → Option Nat → Option Nat}

section Questions

/-- What a question is about, as the screen it is asked on has it. -/
def About (app : App F) : Pending → Key → Prop
  | .pin generation, key =>
      key = .char 'p' ∧ app.view = .generations ∧
        ∃ entry, app.selectedGeneration = some entry ∧ entry.generation = generation
  | .unpin, key => key = .char 'u' ∧ ∃ snapshot, app.snapshot = some snapshot ∧
      snapshot.held.isSome = true

/-- A key asks a question, which a dashboard that only reads never does. -/
structure Asks (app : App F) (key : Key) (question : Pending) : Prop where
  waiting : app.pending = none
  typing : app.editingFilter = false
  writes : app.readOnly = false
  about : About app question key

def isYes (key : Key) : Bool := key = .char 'y' || key = .char 'Y'

/-- The action that a question is about. -/
def actionOf : Pending → Action
  | .pin generation => some generation
  | .unpin => none

/-- What a command asks of the server. -/
def asked : Option Command → Option Action
  | some (.pin generation) => some (some generation)
  | some .unpin => some none
  | _ => none

theorem asked_of_local {command : Option Command} (h : Command.isLocal command = true) :
    asked command = none := by
  unfold Command.isLocal at h
  split at h
  · cases h
  · cases h
  · rename_i hpin hunpin
    unfold asked
    split
    · exact absurd rfl (hpin _)
    · exact absurd rfl hunpin
    · rfl

theorem asked_command (question : Pending) :
    asked (some question.command) = some (actionOf question) := by
  cases question <;> rfl

/-- A change of the session that is none of the question on the screen. -/
structure Apart (app app' : App F) : Prop where
  pending : app'.pending = app.pending
  readOnly : app'.readOnly = app.readOnly

theorem apart_of_moved {app app' : App F} (h : app.Moved app') : Apart app app' := by
  obtain ⟨_, _, _, _, _, _, _, _, rfl⟩ := h
  exact ⟨rfl, rfl⟩

theorem apart_of_steered {app app' : App F} (h : app.Steered A app') : Apart app app' := by
  cases h with
  | moved h => exact apart_of_moved h
  | sorted sort =>
      unfold App.applySort App.clampSelection
      split <;> exact ⟨rfl, rfl⟩

theorem pending_requestPin (app : App F) (now : Nat) (question : Pending)
    (hwaiting : app.pending = none) (htyping : app.editingFilter = false) :
    (app.requestPin now).pending = some question ↔ Asks app (.char 'p') question := by
  unfold App.requestPin
  constructor
  · intro h
    split at h
    · cases hwaiting.symm.trans h
    · rename_i hwrites
      split at h
      · cases hwaiting.symm.trans h
      · rename_i hview
        split at h
        · rename_i entry hselected
          cases h
          exact ⟨hwaiting, htyping, by simpa using hwrites, rfl, by simpa using hview, entry,
            hselected, rfl⟩
        · cases hwaiting.symm.trans h
  · rintro ⟨-, -, hwrites, habout⟩
    rw [if_neg (by simp [hwrites])]
    cases question with
    | pin generation =>
        obtain ⟨-, hview, entry, hselected, rfl⟩ := habout
        rw [if_neg (by simp [hview]), hselected]
    | unpin => cases habout.1

theorem pending_requestUnpin (app : App F) (now : Nat) (question : Pending)
    (hwaiting : app.pending = none) (htyping : app.editingFilter = false) :
    (app.requestUnpin now).pending = some question ↔ Asks app (.char 'u') question := by
  unfold App.requestUnpin
  constructor
  · intro h
    split at h
    · cases hwaiting.symm.trans h
    · rename_i hwrites
      split at h
      · cases hwaiting.symm.trans h
      · rename_i hheld
        cases h
        rw [Option.isNone_iff_eq_none] at hheld
        obtain ⟨generation, hbind⟩ := Option.ne_none_iff_exists'.mp hheld
        obtain ⟨snapshot, hsnapshot, hheld⟩ := Option.bind_eq_some_iff.mp hbind
        exact ⟨hwaiting, htyping, by simpa using hwrites, rfl, snapshot, hsnapshot,
          by rw [hheld]; rfl⟩
  · rintro ⟨-, -, hwrites, habout⟩
    rw [if_neg (by simp [hwrites])]
    cases question with
    | pin generation => cases habout.1
    | unpin =>
        obtain ⟨-, snapshot, hsnapshot, hheld⟩ := habout
        rw [hsnapshot, if_neg (by simpa [Option.isSome_iff_ne_none] using hheld)]

/-- In the ordinary state a key asks what it asks for, and sends nothing. -/
theorem onNormalKey_asks (app : App F) (key : Key) (now : Nat) (question : Pending)
    (hwaiting : app.pending = none) (htyping : app.editingFilter = false) :
    (app.onNormalKey A key now).1.pending = some question ↔ Asks app key question := by
  by_cases hp : key = .char 'p'
  · subst hp
    rw [App.onNormalKey_p]
    exact pending_requestPin app now question hwaiting htyping
  · by_cases hu : key = .char 'u'
    · subst hu
      rw [App.onNormalKey_u]
      exact pending_requestUnpin app now question hwaiting htyping
    · rw [(apart_of_steered (app.onNormalKey_steers now hp hu).2).pending, hwaiting]
      refine ⟨fun h => (by cases h), fun hasks => ?_⟩
      have habout := hasks.about
      cases question
      · exact absurd habout.1 hp
      · exact absurd habout.1 hu

theorem asked_onNormalKey (app : App F) (key : Key) (now : Nat) :
    asked (app.onNormalKey A key now).2 = none := by
  by_cases hp : key = .char 'p'
  · rw [hp, App.onNormalKey_p]
    rfl
  · by_cases hu : key = .char 'u'
    · rw [hu, App.onNormalKey_u]
      rfl
    · exact asked_of_local (app.onNormalKey_steers now hp hu).1

/-- A question is answered by the next key, and only a yes sends what it asks. -/
theorem asked_onKey (app : App F) (key : Key) (now : Nat) :
    asked (app.onKey A key now).2 =
      if isYes key then app.pending.map actionOf else none := by
  unfold App.onKey
  split
  · rename_i hquit
    rw [hquit]
    rfl
  · split
    · rename_i question hpending
      rw [hpending]
      unfold App.onConfirmation
      split
      · exact asked_command question
      · exact asked_command question
      · rename_i hy hY
        rw [if_neg]
        · rfl
        · simpa [isYes] using ⟨hy, hY⟩
    · rename_i hnone
      rw [hnone, Option.map_none, ite_self]
      split
      · rfl
      · exact asked_onNormalKey app key now

/-- Any key takes down the question on the screen, but for the one that ends the session. -/
theorem onKey_asks (app : App F) {key : Key} (now : Nat) (question : Pending) :
    (app.onKey A key now).1.pending = some question ↔
      Asks app key question ∨ app.pending = some question ∧ key = .ctrlC := by
  unfold App.onKey
  split
  · rename_i hquit
    subst hquit
    refine ⟨fun h => Or.inr ⟨h, rfl⟩, ?_⟩
    rintro (hasks | ⟨h, -⟩)
    · have habout := hasks.about
      cases question <;> cases habout.1
    · exact h
  · rename_i hgoes
    split
    · rename_i waiting hpending
      have hnone : (app.onConfirmation key waiting now).1.pending = none := by
        unfold App.onConfirmation
        split <;> rfl
      rw [hnone]
      refine ⟨fun h => (by cases h), ?_⟩
      rintro (hasks | ⟨-, hquit⟩)
      · cases hpending.symm.trans hasks.waiting
      · exact absurd hquit hgoes
    · rename_i hwaiting
      split
      · rename_i htyping
        rw [(apart_of_moved (app.moved_onFilterKey A key)).pending, hwaiting]
        refine ⟨fun h => (by cases h), ?_⟩
        rintro (hasks | ⟨h, -⟩)
        · cases htyping.symm.trans hasks.typing
        · cases h
      · rename_i htyping
        rw [onNormalKey_asks app key now question hwaiting (by simpa using htyping)]
        refine ⟨Or.inl, ?_⟩
        rintro (hasks | ⟨h, -⟩)
        · exact hasks
        · cases hwaiting.symm.trans h

theorem readOnly_onKey (app : App F) (key : Key) (now : Nat) :
    (app.onKey A key now).1.readOnly = app.readOnly := by
  obtain ⟨app', question, hsteered, hkey⟩ := app.onKey_steers (A := A) key now
  rw [hkey]
  exact (apart_of_steered hsteered).readOnly

end Questions

section Turns

variable {s s' : Session F} {t : Turn F}

/-- The session as a turn draws it. -/
abbrev drawn (A : Arithmetic F) (render : Nat → Option Nat → Option Nat) (s : Session F)
    (t : Turn F) : App F := (redraw A render s t).app

theorem apart_drawn (s : Session F) (t : Turn F) : Apart s.app (drawn A render s t) :=
  apart_of_moved ((s.app.moved_expireNotice t.drawn).trans (moved_draw A render _))

/-- What a turn asks of the server: what was in question, where the key was a yes. -/
def answer (s : Session F) (t : Turn F) : Option Action :=
  match t.key? with
  | some key => if isYes key then s.app.pending.map actionOf else none
  | none => none

/-- What a turn does to the question on the screen, to the mode and to what was sent. -/
structure Turned (A : Arithmetic F) (render : Nat → Option Nat → Option Nat) (s : Session F)
    (t : Turn F) (s' : Session F) : Prop where
  sent : s'.sent = s.sent ++ (answer s t).toList
  readOnly : s'.app.readOnly = s.app.readOnly
  question : ∀ q, s'.app.pending = some q ↔
    (∃ key, t.key? = some key ∧ Asks (drawn A render s t) key q) ∨
      s.app.pending = some q ∧ (t.key? = none ∨ t.key? = some .ctrlC)

theorem obey_sent (s : Session F) (command : Option Command) :
    (s.obey command).sent = s.sent ++ (asked command).toList := by
  unfold Session.obey Session.startPoll Session.spawnAction
  split
  · exact (List.append_nil _).symm
  · split <;> exact (List.append_nil _).symm
  · rfl
  · rfl
  · exact (List.append_nil _).symm

/-- A turn without a key leaves the question as it is. -/
theorem turned_of_apart (hkey : t.key? = none) (hsent : s'.sent = s.sent)
    (happ : Apart (drawn A render s t) s'.app) : Turned A render s t s' := by
  have hdrawn : Apart s.app (drawn A render s t) := apart_drawn s t
  refine ⟨?_, happ.readOnly.trans hdrawn.readOnly, fun q => ?_⟩
  · rw [hsent, answer, hkey]
    exact (List.append_nil _).symm
  · rw [happ.pending, hdrawn.pending, hkey]
    constructor
    · exact fun h => Or.inr ⟨h, Or.inl rfl⟩
    · rintro (⟨key, h, -⟩ | ⟨h, -⟩)
      · cases h
      · exact h

theorem turned_fold (h : fold A (redraw A render s t) t = some s') : Turned A render s t s' := by
  cases folds_of_fold h with
  | idle hevent => exact turned_of_apart (by rw [Turn.key?, hevent]) rfl ⟨rfl, rfl⟩
  | pressed key hevent =>
      have hkey : t.key? = some key := by rw [Turn.key?, hevent]
      have hdrawn : Apart s.app (drawn A render s t) := apart_drawn s t
      refine ⟨?_, ?_, fun q => ?_⟩
      · rw [press, obey_sent, asked_onKey, hdrawn.pending, answer, hkey]
        rfl
      · rw [press, Session.app_obey]
        exact (readOnly_onKey ..).trans hdrawn.readOnly
      · rw [press, Session.app_obey]
        refine (onKey_asks ..).trans ?_
        rw [hdrawn.pending, hkey]
        simp
  | inputGone hevent => exact turned_of_apart (by rw [Turn.key?, hevent]) rfl ⟨rfl, rfl⟩
  | polled snapshot hevent => exact turned_of_apart (by rw [Turn.key?, hevent]) rfl ⟨rfl, rfl⟩
  | failed error hevent => exact turned_of_apart (by rw [Turn.key?, hevent]) rfl ⟨rfl, rfl⟩
  | done index action hevent =>
      refine turned_of_apart (by rw [Turn.key?, hevent]) ?_ ?_
      · rw [Session.sent_startPoll]
        rfl
      · rw [Session.app_startPoll]
        exact ⟨rfl, rfl⟩
  | refused index action error hevent =>
      exact turned_of_apart (by rw [Turn.key?, hevent]) rfl ⟨rfl, rfl⟩
  | ticked hevent =>
      refine turned_of_apart (by rw [Turn.key?, hevent]) ?_ ?_
      · rw [Session.sent_startPoll]
        rfl
      · rw [Session.app_startPoll]
        exact ⟨rfl, rfl⟩

theorem turned_step (h : step A render s t = some s') : Turned A render s t s' := by
  unfold step at h
  split at h
  · obtain ⟨folded, hfold, rfl⟩ := Option.map_eq_some_iff.mp h
    have hturned := turned_fold hfold
    exact ⟨hturned.sent, hturned.readOnly, hturned.question⟩
  · cases h

end Turns

section Runs

variable (A render)

/-- A turn whose key asks a question. -/
def Begins (question : Pending) (s : Session F) (t : Turn F) : Prop :=
  ∃ key, t.key? = some key ∧ Asks (drawn A render s t) key question

/-- A turn without a key, but for the key that ends the session. -/
def Spares (t : Turn F) : Prop := t.key? = none ∨ t.key? = some .ctrlC

/-- The question was asked at the keyboard, and no key was pressed until the yes of a turn. -/
def Answers (begun : Session F) (past : List (Turn F)) (t : Turn F) (question : Pending) : Prop :=
  (∃ key, t.key? = some key ∧ isYes key = true) ∧
    Since (step A render) begun (Begins A render question) Spares past

/-- One request for each answer of a run, in their order, and no other. -/
inductive Confirmed (begun : Session F) : List (Turn F) → List Action → Prop
  | nil : Confirmed begun [] []
  | other {past : List (Turn F)} {sent : List Action} {t : Turn F}
      (h : Confirmed begun past sent) (hno : ∀ q, ¬ Answers A render begun past t q) :
      Confirmed begun (past ++ [t]) sent
  | yes {past : List (Turn F)} {sent : List Action} {t : Turn F} {q : Pending}
      (h : Confirmed begun past sent) (hyes : Answers A render begun past t q) :
      Confirmed begun (past ++ [t]) (sent ++ [actionOf q])

variable {A render}

theorem question_iff {readOnly : Bool} {turns : List (Turn F)} {s : Session F}
    (hrun : run (step A render) (start readOnly) turns = some s) (q : Pending) :
    s.app.pending = some q ↔
      Since (step A render) (start readOnly) (Begins A render q) Spares turns := by
  have hturned : ∀ (s : Session F) (t : Turn F) (s' : Session F), step A render s t = some s' →
      (s'.app.pending = some q ↔
        Begins A render q s t ∨ s.app.pending = some q ∧ Spares t) :=
    fun _ _ _ h => (turned_step h).question q
  exact since_iff (fun s => s.app.pending = some q) (fun h => by cases h) hturned hrun

theorem readOnly_run {readOnly : Bool} {turns : List (Turn F)} {s : Session F}
    (hrun : run (step A render) (start readOnly) turns = some s) : s.app.readOnly = readOnly := by
  have hstep : ∀ (s : Session F) (t : Turn F) (s' : Session F), s.app.readOnly = readOnly →
      step A render s t = some s' → s'.app.readOnly = readOnly :=
    fun _ _ _ hs h => (turned_step h).readOnly.trans hs
  exact invariant_run hstep rfl hrun

/-- In every run of the dashboard the server is sent one request for each yes to a question that
was asked at the keyboard and on the screen since, and a dashboard that only reads sends none. -/
theorem sent_confirmed {readOnly : Bool} {turns : List (Turn F)} {s : Session F}
    (hrun : run (step A render) (start readOnly) turns = some s) :
    Confirmed A render (start readOnly) turns s.sent ∧ (readOnly = true → s.sent = []) := by
  induction turns using List.reverseRecOn generalizing s with
  | nil =>
      cases hrun
      exact ⟨.nil, fun _ => rfl⟩
  | append_singleton past t ih =>
      obtain ⟨mid, hmid, hlast⟩ := run_snoc hrun
      have hturned := turned_step hlast
      obtain ⟨hconfirmed, hreads⟩ := ih hmid
      have hanswer : ∀ q, Answers A render (start readOnly) past t q →
          answer mid t = some (actionOf q) := by
        rintro q ⟨⟨key, hkey, hyes⟩, hsince⟩
        rw [answer, hkey, (question_iff hmid q).mpr hsince]
        simp [hyes]
      cases hnext : answer mid t with
      | none =>
          rw [hturned.sent, hnext, Option.toList_none, List.append_nil]
          refine ⟨.other hconfirmed fun q hq => ?_, hreads⟩
          cases hnext.symm.trans (hanswer q hq)
      | some action =>
          -- A yes to a question that has been on the screen since it was asked.
          obtain ⟨q, hyes, hq, rfl⟩ : ∃ q, (∃ key, t.key? = some key ∧ isYes key = true) ∧
              mid.app.pending = some q ∧ action = actionOf q := by
            unfold answer at hnext
            split at hnext
            · rename_i key hkey
              split at hnext
              · rename_i hyes
                obtain ⟨q, hq, rfl⟩ := Option.map_eq_some_iff.mp hnext
                exact ⟨q, ⟨key, hkey, hyes⟩, hq, rfl⟩
              · cases hnext
            · cases hnext
          have hsince := (question_iff hmid q).mp hq
          rw [hturned.sent, hnext]
          refine ⟨.yes hconfirmed ⟨hyes, hsince⟩, fun hread => ?_⟩
          obtain ⟨before, turn, _, asking, _, hbefore, ⟨key, _, hasks⟩, _⟩ := hsince
          have hwrites := (apart_drawn asking turn).readOnly.symm.trans hasks.writes
          rw [readOnly_run hbefore, hread] at hwrites
          cases hwrites

/-- A poll that lists some generations, newest first. -/
def listed (generations : List Nat) : Event Int :=
  .polled (.ok
    { pinned := none, generations := generations.map GenerationEntry.mk, routes := []
      metrics := { latencySumSeconds := 0 } })

/-- The older of two generations is selected and its pin asked for; a third one is published and
listed before the yes. -/
def braked : List (Turn Int) :=
  [⟨0, 1, listed [7, 6]⟩, ⟨1, 2, .key (some .tab)⟩, ⟨2, 3, .key (some .down)⟩,
    ⟨3, 4, .key (some .down)⟩, ⟨4, 5, .key (some (.char 'p'))⟩, ⟨5, 6, .tick⟩,
    ⟨6, 7, listed [8, 7, 6]⟩, ⟨7, 8, .key (some (.char 'y'))⟩]

theorem sent_confirmed_of_braked :
    ∃ s, run (step whole widget) (start false) braked = some s ∧ s.sent = [some 6] ∧
      Confirmed whole widget (start false) braked s.sent ∧ (false = true → s.sent = []) := by
  have hsent : (run (step whole widget) (start false) braked).map (·.sent) = some [some 6] := by
    decide +kernel
  obtain ⟨s, hrun, hsent⟩ := Option.map_eq_some_iff.mp hsent
  exact ⟨s, hrun, hsent, sent_confirmed hrun⟩

end Runs

end Ramjet.Top.Confirming
