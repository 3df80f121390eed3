/- digest: Every step of the completion loop as a course of events, and what it keeps. -/

import Ramjet.Engine.Worker.Handling

set_option autoImplicit false
set_option relaxedAutoImplicit false

namespace Ramjet.Engine.Worker.Coherence

open Ramjet.Base.Octets
open Ramjet.Base.Net
open Ramjet.Base.Machine
open Ramjet.Engine.IdlePool
open Ramjet.Engine.Worker.Connection
open Ramjet.Engine.Worker.Core
open Ramjet.Engine.Worker.Serving
open Ramjet.Engine.Worker.Requests
open Ramjet.Engine.Worker.Handlers
open Ramjet.Engine.Worker.Loop
open Ramjet.Engine.Worker.Descriptors
open Ramjet.Engine.Worker.Ownership
open Ramjet.Engine.Worker.Moves
open Ramjet.Engine.Worker.Frames
open Ramjet.Engine.Worker.Images
open Ramjet.Engine.Worker.Turns
open Ramjet.Engine.Worker.Events
open Ramjet.Engine.Worker.Keeping
open Ramjet.Engine.Worker.Arrivals
open Ramjet.Engine.Worker.Alterations
open Ramjet.Engine.Worker.Changes
open Ramjet.Engine.Worker.Handling
open Ramjet.Router.Balancing
open Ramjet.Router.Stats
open Ramjet.Router.Table

variable (env : Outside) (calm : Bool)

/-- An operation completes before the generation of its descriptor has gone all the way round. -/
def OnTime (m : Machine) : Act → Prop
  | .complete op _ _ => m.world.bumps op.fd < op.bumps + GENERATIONS
  | _ => True

/-- In a calm core a connection moved on is no upgraded exchange that a drain counts. -/
def Composed (m : Machine) : Act → Prop
  | .turn _ => ∀ fd rest, m.tasks = .advance fd :: rest →
      ∀ c, m.world.slots fd = .client c → Calm calm c
  | _ => True

/-- One event of a core whose descriptors are with their owners. -/
def Next (w w' : World) : Prop := ∃ s, Kept s w ∧ Event env calm s w w'

abbrev Course := Relation.ReflTransGen (Next env calm)

/-- What is left to do once the connections are seen to: the descriptors dealt to a core that
serves, the rest of a sweep and the next of the helper's notes. -/
inductive Waits (w : World) : List Task → Prop
  | nothing : Waits w []
  | deal {channel : Fd} {tls : Bool} {ready : List Fd} (hserving : w.drainDeadline = none)
      (hlistener : channel ∈ w.intakes.map (·.fd) ++ w.admin.toList) :
      Waits w [.deal channel tls ready]
  | notes : Waits w [.notes]
  | sweep {rest : List Fd} {now : Nat} : Waits w [.sweep rest now, .notes]

/-- The work left: first on the connection being moved, then on what waits behind it. Every other
connection rests. -/
structure Queued (fd : Fd) (w : World) (front back : List Task) : Prop where
  left : Left w fd front
  served : front ≠ [] → Served w fd
  waits : Waits w back
  rests : ∀ x, x ≠ fd ∨ front = [] → RestsAt w x

/-- A core whose descriptors, counts and work are in order. -/
structure Coherent (s : Bool) (m : Machine) : Prop where
  kept : Kept s m.world
  tallied : Tallied m.world
  marked : Marked m.world
  queued : ∃ fd front back, m.tasks = front ++ back ∧ Queued fd m.world front back

section Courses

variable {env} {calm} {s : Bool} {w w' : World}

theorem Course.of_happens (h : Kept s w) (hevents : Happens env calm s w w') :
    Course env calm w w' := by
  induction hevents with
  | refl => exact .refl
  | tail hbefore hevent ih => exact ih.tail ⟨s, Kept.happened h hbefore, hevent⟩

/-- What every event of a kept core keeps, a course of them keeps. -/
theorem Course.keeps {good : World → Prop}
    (hkeeps : ∀ s w w', Kept s w → Event env calm s w w' → good w → good w')
    (h : Course env calm w w') (hgood : good w) : good w' := by
  induction h with
  | refl => exact hgood
  | tail _ hnext ih =>
      obtain ⟨s, hkept, hevent⟩ := hnext
      exact hkeeps s _ _ hkept hevent ih

theorem Marked.happened (hmarked : Marked w) (h : Kept s w) (hevents : Happens env calm s w w') :
    Marked w' := by
  induction hevents with
  | refl => exact hmarked
  | tail hbefore hevent ih => exact event_marked (Kept.happened h hbefore) hevent ih

end Courses

section Completions

variable {w : World} {op : Op}

/-- A completion that comes in time is dropped exactly where its descriptor has passed on. -/
theorem stale_iff (h : Tagged w) (hop : op ∈ w.ops)
    (htime : w.bumps op.fd < op.bumps + GENERATIONS) (outcome : Outcome) :
    stale (w.retire op outcome) op = true ↔ op.kind ≠ .close ∧ op.bumps ≠ w.bumps op.fd := by
  have huser := h.user op hop
  have hle := h.bumps op hop
  have hgeneration : (w.retire op outcome).generations op.fd = w.bumps op.fd % GENERATIONS :=
    h.gens op.fd
  have hsame : op.bumps % GENERATIONS % GENERATIONS = w.bumps op.fd % GENERATIONS ↔
      op.bumps = w.bumps op.fd := by
    unfold GENERATIONS at htime ⊢
    omega
  unfold stale
  rw [huser, tag_kind, tag_generation, tag_fd, hgeneration]
  simp only [Bool.and_eq_true, bne_iff_ne, ne_eq, Option.some.injEq, hsame]

theorem tags_of (h : Tagged w) (hop : op ∈ w.ops) :
    tagKind op.user = some op.kind ∧ tagFd op.user = op.fd := by
  rw [h.user op hop, tag_kind, tag_fd]
  exact ⟨rfl, rfl⟩

end Completions

section Turns

variable {env} {ans : Answers} {calm} {s : Bool} {w w' : World} {fd : Fd} {c : Conn}
  {ran : World × List Task} {front back : List Task} {task : Task}

theorem untaken_of_fits (h : Answers.fits w ans = true) : Untaken ans w := by
  intro up connected hconnect
  unfold Answers.fits at h
  simp only [hconnect, Option.all_some, Bool.and_eq_true, Bool.not_eq_true'] at h
  exact h.1

theorem Waits.same (h : Waits w back) (hdeadline : w'.drainDeadline = w.drainDeadline)
    (hintakes : w'.intakes = w.intakes) (hadmin : w'.admin = w.admin) : Waits w' back := by
  cases h with
  | nothing => exact .nothing
  | deal hserving hlistener =>
      refine .deal (hdeadline.trans hserving) ?_
      rw [hintakes, hadmin]
      exact hlistener
  | notes => exact .notes
  | sweep => exact .sweep

theorem Left.join (h : Left w fd front) {more : List Task}
    (hmore : ∀ t ∈ more, t = .advance fd ∨ t = .drive fd) : Left w fd (front ++ more) := by
  cases front with
  | nil =>
      cases more with
      | nil => exact trivial
      | cons task rest =>
          exact ⟨(hmore task (List.mem_cons_self ..)).imp_right .inl,
            fun t ht => hmore t (List.mem_cons_of_mem _ ht)⟩
  | cons task rest =>
      refine ⟨h.1, fun t ht => ?_⟩
      rcases List.mem_append.mp ht with ht | ht
      · exact h.2 t ht
      · exact hmore t ht

/-- A handler that ran leaves its connection to be moved on, and the others at rest. -/
theorem Handled.queued (h : Handled env calm s fd w ran) (hrested : ∀ x, x ≠ fd → RestsAt w x)
    {more : List Task} (hmore : ∀ t ∈ more, t = .advance fd ∨ t = .drive fd)
    (hserved : more ≠ [] → Served ran.1 fd) (hwaits : Waits ran.1 back) :
    Queued fd ran.1 (ran.2 ++ more) back := by
  refine ⟨Left.join h.left hmore, fun hsome => ?_, hwaits, fun x hx c hc => ?_⟩
  · by_cases hnone : more = []
    · rw [hnone, List.append_nil] at hsome
      exact h.served hsome
    · exact hserved hnone
  · by_cases hxf : x = fd
    · subst hxf
      have hnone := hx.resolve_left fun hne => hne rfl
      exact h.rests (List.append_eq_nil_iff.mp hnone).1 c hc
    · exact hrested x hxf c (h.beside.others x c hxf hc)

theorem advance_rests (hdone : (advance env ans w fd).2 = []) :
    RestsAt (advance env ans w fd).1 fd := by
  intro c hc
  unfold advance at hdone hc
  cases hslot : w.slots fd with
  | client d =>
      simp only [hslot] at hdone
      split at hdone <;> simp at hdone
  | _ =>
      simp only [hslot] at hc
      cases hc

variable (env) in
/-- The first piece of work on a connection, as moves of its exchange. -/
theorem front_ran (h : Kept s w) (hleft : Left w fd (task :: front)) (hserved : Served w fd)
    (hcalm : task = .advance fd → ∀ c, w.slots fd = .client c → Calm calm c)
    (huntaken : Untaken ans w) : Ran env ans calm fd w (runTask env ans w task) ∧
      ((runTask env ans w task).2 = [] → RestsAt (runTask env ans w task).1 fd) := by
  rcases hleft.1 with rfl | rfl | ⟨rfl, hdue⟩
  · have hshape : ∀ c, w.slots fd = .client c → Shape (tiesOf c) := fun c hc =>
      (h.steady fd c hc).shape
    exact ⟨advance_ran hshape (hcalm rfl) huntaken, advance_rests⟩
  · exact ⟨drive_ran hserved, drive_rests⟩
  · obtain ⟨c, hslot, hdue'⟩ := hdue.due
    have hgreeted := (h.steady fd c hslot).served hdue'.aimed
    exact ⟨retryDue_ran hdue huntaken, retryOrFail_rests hslot hgreeted.1⟩

variable (env) (ans) in
/-- Work on a connection goes on. -/
theorem front_queued (h : Kept s w) (hqueued : Queued fd w (task :: front) back)
    (hcalm : task = .advance fd → ∀ c, w.slots fd = .client c → Calm calm c)
    (huntaken : Untaken ans w) :
    Happens env calm s w (runTask env ans w task).1 ∧
      Queued fd (runTask env ans w task).1 ((runTask env ans w task).2 ++ front) back := by
  have hserved := hqueued.served nofun
  obtain ⟨hran, hrests⟩ := front_ran env h hqueued.left hserved hcalm huntaken
  have hhandled : Handled env calm s fd w (runTask env ans w task) := .of_ran h hserved hran hrests
  have hbeside := hhandled.beside
  exact ⟨hhandled.happens, Handled.queued hhandled (fun x hx => hqueued.rests x (.inl hx))
    hqueued.left.2 (fun _ => (steps_served h hserved hran.steps).2)
    (hqueued.waits.same hbeside.drainDeadline hbeside.intakes hbeside.admin)⟩

/-- A handler that ran with nothing left of another. -/
theorem Handled.begins (h : Handled env calm s fd w ran) (hrested : ∀ x, RestsAt w x)
    (hwaits : Waits ran.1 back) : Happens env calm s w ran.1 ∧
      ∃ fd front, ran.2 ++ back = front ++ back ∧ Queued fd ran.1 front back := by
  have hnothing : ∀ t ∈ ([] : List Task), t = .advance fd ∨ t = .drive fd := nofun
  have hqueued := Handled.queued h (fun x _ => hrested x) hnothing (fun hnone => absurd rfl hnone) hwaits
  rw [List.append_nil] at hqueued
  exact ⟨h.happens, fd, ran.2, rfl, hqueued⟩

/-- Nothing happened to any connection, and none is being moved. -/
theorem Aloof.queued (h : Aloof w w') (hrested : ∀ x, RestsAt w x) (hwaits : Waits w' back)
    (fd : Fd) : Queued fd w' [] back :=
  ⟨trivial, fun hnone => absurd rfl hnone, hwaits, fun x _ => h.rests hrested x⟩

/-- The helper's next note is read, or its next read submitted. -/
theorem notes_queued (h : Kept s w) (hrested : ∀ x, RestsAt w x)
    (hanswers : Answers.fits w ans = true) :
    Happens env calm s w (notes env ans w).1 ∧
      ∃ fd front back, (notes env ans w).2 ++ [] = front ++ back ∧
        Queued fd (notes env ans w).1 front back := by
  have huntaken := untaken_of_fits hanswers
  unfold notes
  split
  · have hfd : (Kind.notify = Kind.notify ∧ w.notify = w.notify) ∨
        (Kind.ofListener .notify ∧ w.notify ∈ w.intakes.map (·.fd) ++ w.admin.toList) :=
      .inl ⟨rfl, rfl⟩
    obtain ⟨hevents, haloof⟩ := arm_happens env ans calm s hfd
    exact ⟨hevents, w.notify, [], [], rfl, Aloof.queued haloof hrested .nothing w.notify⟩
  · obtain ⟨hevents, haloof, htasks⟩ := onTick_happens env ans calm h
    rcases htasks with htasks | ⟨rest, now, htasks⟩
    · refine ⟨hevents, w.notify, [], [.notes], ?_, Aloof.queued haloof hrested .notes w.notify⟩
      show ((onTick ans w).2 ++ [Task.notes]) ++ [] = _
      rw [List.append_nil, htasks]
    · refine ⟨hevents, w.notify, [], [.sweep rest now, .notes], ?_,
        Aloof.queued haloof hrested .sweep w.notify⟩
      show ((onTick ans w).2 ++ [Task.notes]) ++ [] = _
      rw [List.append_nil, htasks]
      rfl
  · rename_i up ok hnote
    have hup : up ∈ w.borrowed := by
      unfold Answers.fits at hanswers
      simp only [hnote, Bool.and_eq_true, List.contains_iff_mem] at hanswers
      exact hanswers.2
    obtain ⟨fd, hhandled⟩ := onConnected_handled env calm h hup ok huntaken hrested
    obtain ⟨hevents, fd', front, htasks, hqueued⟩ := Handled.begins hhandled hrested .notes
    refine ⟨hevents, fd', front, [.notes], ?_, hqueued⟩
    rw [List.append_nil, ← htasks]

variable (env) (calm) in
/-- With no connection to be moved, the work that waits is done. -/
theorem back_queued (h : Kept s w) (hwaits : Waits w (task :: back))
    (hrested : ∀ x, RestsAt w x) (hfits : Task.fits w task = true)
    (hanswers : Answers.fits w ans = true) :
    Happens env calm s w (runTask env ans w task).1 ∧
      ∃ fd front back', (runTask env ans w task).2 ++ back = front ++ back' ∧
        Queued fd (runTask env ans w task).1 front back' := by
  have huntaken := untaken_of_fits hanswers
  cases hwaits with
  | @deal channel tls ready hserving hlistener =>
      cases ready with
      | nil =>
          have harm : (k : Kind) → Kind.ofListener k →
              Happens env calm s w (arm ans w k channel) ∧ Aloof w (arm ans w k channel) :=
            fun k hk => arm_happens _ _ _ _ (.inr ⟨hk, hlistener⟩)
          have hkind : Kind.ofListener (if tls then .intakeTls else .intake) := by
            cases tls <;> exact trivial
          obtain ⟨hevents, haloof⟩ := harm _ hkind
          exact ⟨hevents, channel, [], [], rfl, Aloof.queued haloof hrested .nothing channel⟩
      | cons fd rest =>
          have hfree : w.opened fd = false := by
            simpa [Task.fits] using hfits
          have hstarted : Handled env calm s fd w (startClient ans w fd tls) :=
            startClient_handled h tls hfree hserving hrested
          have hbeside := hstarted.beside
          have hwaits' : Waits (startClient ans w fd tls).1 [.deal channel tls rest] := by
            refine .deal (hbeside.drainDeadline.trans hserving) ?_
            rw [hbeside.intakes, hbeside.admin]
            exact hlistener
          obtain ⟨hevents, fd', front, htasks, hqueued⟩ := Handled.begins hstarted hrested hwaits'
          refine ⟨hevents, fd', front, _, ?_, hqueued⟩
          rw [← htasks]
          show ((startClient ans w fd tls).2 ++ [Task.deal channel tls rest]) ++ [] = _
          rw [List.append_nil]
  | notes => exact notes_queued h hrested hanswers
  | @sweep rest now =>
      cases rest with
      | nil => exact ⟨.refl, w.notify, [], [.notes], rfl, Aloof.queued (.refl w) hrested .notes _⟩
      | cons fd rest =>
          have hswept : Handled env calm s fd w (sweepClient env ans w fd now) :=
            sweepClient_handled env calm h now hrested
          have hwaits : Waits (sweepClient env ans w fd now).1 [.sweep rest now, .notes] := .sweep
          obtain ⟨hevents, fd', front, htasks, hqueued⟩ := Handled.begins hswept hrested hwaits
          refine ⟨hevents, fd', front, _, ?_, hqueued⟩
          rw [← htasks]
          show ((sweepClient env ans w fd now).2 ++ [Task.sweep rest now]) ++ [Task.notes] = _
          rw [List.append_assoc]
          rfl

end Turns

section Dispatch

variable {env} {ans : Answers} {calm} {s : Bool} {w w' : World} {op : Op} {outcome : Outcome}

variable (env) (calm) (s) in
/-- A completion that comes too late is over, and a connection it carries is closed. -/
theorem dropStale_happens (hop : op ∈ w.ops)
    (hlate : op.kind = .close ∨ op.bumps ≠ w.bumps op.fd)
    (hfits : Outcome.fits w op outcome = true) :
    Happens env calm s w (dropStale (w.retire op outcome) op outcome) ∧
      Aloof w (dropStale (w.retire op outcome) op outcome) := by
  have hdropped : Happens env calm s w (w.retire op outcome) :=
    .single (.aside (.dropped outcome hop hlate))
  unfold dropStale
  split
  · rename_i fd haccepts
    have hfree : w.opened fd = false := by
      simp only [Outcome.fits, Bool.and_eq_true, Bool.not_eq_true'] at hfits
      exact hfits.2
    have hclosed : Aside (w.retire op (.accepted fd))
        (((w.retire op (.accepted fd)).opening fd).sysClose fd) := .turnedAway hfree
    exact ⟨hdropped.tail (.aside hclosed), fun _ _ => .rfl, rfl, rfl, rfl⟩
  · exact ⟨hdropped, fun _ _ => .rfl, rfl, rfl, rfl⟩

/-- Nothing was done for a connection, and nothing is left to do. -/
theorem aloof_queued (hevents : Happens env calm s w w') (haloof : Aloof w w')
    (hrested : ∀ x, RestsAt w x) : Happens env calm s w w' ∧
      ∃ fd front back, ([] : List Task) = front ++ back ∧ Queued fd w' front back :=
  ⟨hevents, w.notify, [], [], rfl, Aloof.queued haloof hrested .nothing w.notify⟩

/-- A handler of one completion that ran. -/
theorem handled_queued {ran : World × List Task} {fd : Fd} (h : Handled env calm s fd w ran)
    (hrested : ∀ x, RestsAt w x) : Happens env calm s w ran.1 ∧
      ∃ fd front back, ran.2 = front ++ back ∧ Queued fd ran.1 front back := by
  obtain ⟨hevents, fd', front, htasks, hqueued⟩ := Handled.begins h hrested .nothing
  exact ⟨hevents, fd', front, [], by rw [← htasks, List.append_nil], hqueued⟩

variable (env) (ans) (calm) in
/-- A completion nothing has overtaken is delivered to whom it is for. -/
theorem deliver_queued (h : Kept s w) (ht : Tallied w) (hop : op ∈ w.ops)
    (hlive : op.bumps = w.bumps op.fd) (hfits : Outcome.fits w op outcome = true)
    (huntaken : Untaken ans w) (hrested : ∀ x, RestsAt w x) :
    Happens env calm s w
        (deliver env ans (w.retire op outcome) op outcome (stampsOf w op outcome)).1 ∧
      ∃ fd front back,
        (deliver env ans (w.retire op outcome) op outcome (stampsOf w op outcome)).2 = front ++ back ∧
        Queued fd (deliver env ans (w.retire op outcome) op outcome (stampsOf w op outcome)).1 front
          back := by
  obtain ⟨hkind, hfd⟩ := tags_of h.tagged hop
  unfold deliver
  rw [hkind, hfd]
  have hlisten : ∀ k, op.kind = k → Kind.ofListener k →
      Happens env calm s w (onAccept ans (w.retire op outcome) op.fd outcome k).1 ∧
      ∃ fd front back, (onAccept ans (w.retire op outcome) op.fd outcome k).2 = front ++ back ∧
        Queued fd (onAccept ans (w.retire op outcome) op.fd outcome k).1 front back := by
    intro k hk hlistener
    obtain ⟨fd, hhandled⟩ :=
      onAccept_handled env ans calm h ⟨hop, hk, hlive⟩ hlistener hfits hrested
    exact handled_queued hhandled hrested
  have hintake : ∀ k tls, op.kind = k → Kind.ofListener k →
      Happens env calm s w (onIntake (w.retire op outcome) op.fd outcome tls).1 ∧
      ∃ fd front back, (onIntake (w.retire op outcome) op.fd outcome tls).2 = front ++ back ∧
        Queued fd (onIntake (w.retire op outcome) op.fd outcome tls).1 front back := by
    intro k tls hk hlistener
    obtain ⟨hevents, haloof, htasks⟩ :=
      onIntake_happens env calm h ⟨hop, hk, hlive⟩ hlistener outcome tls
    rcases htasks with htasks | ⟨ready, htasks, hserving, hmem⟩
    · rw [htasks]
      exact aloof_queued hevents haloof hrested
    · have hwaits : Waits (onIntake (w.retire op outcome) op.fd outcome tls).1
          [.deal op.fd tls ready] := by
        refine .deal (haloof.drainDeadline.trans hserving) ?_
        rw [haloof.intakes, haloof.admin]
        exact hmem
      exact ⟨hevents, op.fd, [], _, htasks, Aloof.queued haloof hrested hwaits op.fd⟩
  cases hk : op.kind with
  | accept => exact hlisten .accept hk trivial
  | acceptTls => exact hlisten .acceptTls hk trivial
  | adminAccept => exact hlisten .adminAccept hk trivial
  | intake => exact hintake .intake false hk trivial
  | intakeTls => exact hintake .intakeTls true hk trivial
  | notify =>
      have hheard : Happens env calm s w (w.retire op outcome) :=
        .single (.aside (.heard outcome ⟨hop, hk, hlive⟩ (.inl rfl)))
      have haloof : Aloof w (w.retire op outcome) := ⟨fun _ _ => .rfl, rfl, rfl, rfl⟩
      dsimp only
      unfold onNotify
      split
      · exact ⟨hheard, op.fd, [], [.notes], rfl, Aloof.queued haloof hrested .notes op.fd⟩
      · exact aloof_queued hheard haloof hrested
  | downRead =>
      exact handled_queued (onClientRead_handled h ⟨hop, hk, hlive⟩ hfits hrested) hrested
  | downWrite => exact handled_queued (onClientWrite_handled h ⟨hop, hk, hlive⟩ outcome) hrested
  | upRead =>
      obtain ⟨fd, hhandled⟩ := onUpstreamRead_handled env calm h
        ⟨hop, hk, hlive⟩ hfits huntaken hrested
      exact handled_queued hhandled hrested
  | upWrite =>
      obtain ⟨fd, hhandled⟩ := onUpstreamWrite_handled env calm h
        ⟨hop, hk, hlive⟩ outcome huntaken hrested
      exact handled_queued hhandled hrested
  | adminRead =>
      obtain ⟨hevents, haloof⟩ := onAdminRead_happens env ans calm h
        ht.admins ⟨hop, hk, hlive⟩ outcome
      exact aloof_queued hevents haloof hrested
  | adminWrite =>
      obtain ⟨hevents, haloof⟩ := onAdminWrite_happens env ans calm h
        ⟨hop, hk, hlive⟩ outcome
      exact aloof_queued hevents haloof hrested
  | close =>
      have hdropped : Happens env calm s w (w.retire op outcome) :=
        .single (.aside (.dropped outcome hop (.inl hk)))
      have haloof : Aloof w (w.retire op outcome) := ⟨fun _ _ => .rfl, rfl, rfl, rfl⟩
      exact ⟨hdropped, op.fd, [], [], rfl, Aloof.queued haloof hrested .nothing op.fd⟩

end Dispatch

section Draining

variable {env} {ans : Answers} {calm} {s : Bool} {w w' : World} {fd : Fd}

/-- Nothing the core has to cut off. -/
def Untunnelled (w : World) : Prop := ∀ x c, w.slots x = .client c → c.phase ≠ .tunnel

/-- What draining one slot leaves: the others as they were, and this one at rest. -/
structure Settled (fd : Fd) (w w' : World) : Prop where
  others : ∀ x, x ≠ fd → w'.slots x = w.slots x
  rests : RestsAt w' fd
  phase : ∀ c, w'.slots fd = .client c → c.phase ≠ .tunnel
  drainDeadline : w'.drainDeadline = w.drainDeadline

theorem Settled.close (w : World) (ans : Answers) (fd : Fd) : Settled fd w (w.close ans fd) := by
  have hframe : Frame fd w (w.close ans fd) := .close fd w ans fd
  have hempty : (w.close ans fd).slots fd = .empty := by
    rw [close_slots, Function.update_self]
  refine ⟨fun x hx => by rw [close_slots, Function.update_of_ne hx], fun c hc => ?_, fun c hc => ?_,
    hframe.drainDeadline⟩
  · rw [hempty] at hc
    cases hc
  · rw [hempty] at hc
    cases hc

theorem Settled.untouched (w : World) (hslot : ∀ c, w.slots fd ≠ .client c) : Settled fd w w :=
  ⟨fun _ _ => rfl, fun c hc => absurd hc (hslot c), fun c hc => absurd hc (hslot c), rfl⟩

/-- Closing a descriptor reads none of the fields the drain has emptied. -/
theorem close_emptied (w : World) (ans : Answers) (f : Fd) (intakes : List Intake)
    (intakePartial : Ramjet.Base.AssocMap.Map Fd Bytes) (admin : Option Fd) :
    World.close ans { w with intakes := intakes, intakePartial := intakePartial, admin := admin } f =
      { w.close ans f with
        intakes := intakes, intakePartial := intakePartial, admin := admin } := by
  unfold World.close World.countOff
  dsimp only
  split <;> split <;> rfl

theorem closeAll_emptied (ans : Answers) (fds : List Fd) (intakes : List Intake)
    (intakePartial : Ramjet.Base.AssocMap.Map Fd Bytes) (admin : Option Fd) (w : World) :
    World.closeAll ans
        { w with intakes := intakes, intakePartial := intakePartial, admin := admin } fds =
      { World.closeAll ans w fds with
        intakes := intakes, intakePartial := intakePartial, admin := admin } := by
  induction fds generalizing w with
  | nil => rfl
  | cons f rest ih =>
      show World.closeAll ans (World.close ans _ f) rest = _
      rw [close_emptied, ih]
      rfl

/-- The intakes of a drain close as they would with no field emptied. -/
theorem intakes_closed (w : World) (ans : Answers) (fds : List Fd) :
    World.closeAll ans { w with intakes := [] } fds =
      { World.closeAll ans w fds with
        intakes := [], intakePartial := w.intakePartial, admin := w.admin } :=
  closeAll_emptied ans fds [] w.intakePartial w.admin w

/-- The listeners of a drain close as one. -/
theorem unlistened_eq (w : World) (ans : Answers) (fds fds' : List Fd) :
    World.closeAll ans
        { World.closeAll ans { w with intakes := [] } fds with intakePartial := [], admin := none }
        fds' =
      World.closeAll ans { w with intakes := [], intakePartial := [], admin := none }
        (fds ++ fds') := by
  have hboth : World.closeAll ans w (fds ++ fds') =
      World.closeAll ans (World.closeAll ans w fds) fds' := List.foldl_append
  rw [intakes_closed, closeAll_emptied ans (fds ++ fds') [] [] none w, hboth]
  exact closeAll_emptied ans fds' [] [] none (World.closeAll ans w fds)

variable (env) (ans) (calm) in
/-- A slot is drained: its connection waited for, or closed. -/
theorem drainSlot_happens (hdraining : w.drainDeadline.isSome = true) (hrests : RestsAt w fd)
    (hfresh : (w.slots fd).drainCounted = false)
    (hcut : s = false ∨ ∀ c, w.slots fd = .client c → c.phase ≠ .tunnel) :
    Happens env calm s w (drainSlot ans w fd) ∧ Settled fd w (drainSlot ans w fd) := by
  unfold drainSlot
  split
  · rename_i c hslot
    have hfresh' : c.drainCounted = false := by
      rw [hslot] at hfresh
      exact hfresh
    obtain ⟨hgiven, hending⟩ := hrests c hslot
    unfold drainClient
    dsimp only
    split
    · rename_i hkeep
      simp only [Bool.and_eq_true, Bool.or_eq_true, beq_iff_eq, bne_iff_ne, ne_eq, or_assoc]
        at hkeep
      obtain ⟨hserving, hphase⟩ := hkeep
      refine ⟨.single (.spared hslot hdraining hphase hserving hfresh'), fun x hx => ?_,
        fun d hd => ?_, fun d hd => ?_, rfl⟩
      · rw [setClient_slots, Function.update_of_ne hx]
      · rw [setClient_slot, Slot.client.injEq] at hd
        subst hd
        refine ⟨hgiven, fun hclosing => ?_⟩
        by_cases hhead : c.phase = .head
        · have hbusy : c.writing = true ∨ c.hasPendingOut = true := by
            rw [hhead] at hserving
            simpa using hserving
          exact hbusy
        · have hphase' : (spared c).phase = c.phase := by
            unfold spared
            dsimp only
            rw [if_neg (by simpa using hhead)]
          exact hending (hphase'.symm.trans hclosing)
      · rw [setClient_slot, Slot.client.injEq] at hd
        subst hd
        unfold spared
        dsimp only
        split
        · nofun
        · exact hphase
    · rename_i hidle
      simp only [Bool.and_eq_true, Bool.or_eq_true, beq_iff_eq, bne_iff_ne, ne_eq, not_and_or,
        not_or, not_not] at hidle
      refine ⟨?_, .close w ans fd⟩
      by_cases htunnel : c.phase = .tunnel
      · have hweak : s = false := hcut.resolve_right fun hnone => hnone c hslot htunnel
        exact .single (.cut ans hweak hslot hdraining htunnel hfresh')
      · obtain ⟨⟨⟨⟨hconnecting, hexchanging⟩, hrelaying⟩, hwriting⟩, hpending⟩ :=
          hidle.resolve_right htunnel
        cases hphase : c.phase with
        | head =>
            have hidled : Move env ans calm fd w (w.close ans fd) := .idled hslot hphase
            exact .single (.moved hidled)
        | closing => exact absurd (hending hphase) (not_or.mpr ⟨hwriting, hpending⟩)
        | connecting => exact absurd hphase hconnecting
        | exchanging => exact absurd hphase hexchanging
        | relaying => exact absurd hphase hrelaying
        | tunnel => exact absurd hphase htunnel
  · rename_i a hslot
    have hfresh' : a.drainCounted = false := by
      rw [hslot] at hfresh
      exact hfresh
    unfold drainAdmin
    split
    · rename_i hbusy
      simp only [Bool.or_eq_true, Bool.not_eq_true', List.isEmpty_eq_false_iff] at hbusy
      refine ⟨.single (.aside (.adminSpared hslot hdraining hbusy hfresh')), fun x hx => ?_,
        fun d hd => ?_, fun d hd => ?_, rfl⟩
      · rw [setSlot_slots, Function.update_of_ne hx]
      · rw [setSlot_slots, Function.update_self] at hd
        cases hd
      · rw [setSlot_slots, Function.update_self] at hd
        cases hd
    · exact ⟨.single (.aside (.adminClosed ans hslot)), .close w ans fd⟩
  · rename_i hclient _
    exact ⟨.refl, .untouched w hclient⟩

variable (env) (ans) (calm) in
/-- Every slot is drained, each once. -/
theorem drainSlots_happens {fds : List Fd} (hnodup : fds.Nodup)
    (hdraining : w.drainDeadline.isSome = true) (hrests : ∀ x, RestsAt w x)
    (hfresh : ∀ x ∈ fds, (w.slots x).drainCounted = false) (hcut : s = false ∨ Untunnelled w) :
    Happens env calm s w (fds.foldl (drainSlot ans) w) ∧
      ∀ x, RestsAt (fds.foldl (drainSlot ans) w) x := by
  induction fds generalizing w with
  | nil => exact ⟨.refl, hrests⟩
  | cons fd rest ih =>
      obtain ⟨hnotin, hnodup'⟩ := List.nodup_cons.mp hnodup
      obtain ⟨hevents, hsettled⟩ := drainSlot_happens env calm ans
        hdraining (hrests fd) (hfresh fd (List.mem_cons_self ..)) (hcut.imp_right fun h => h fd)
      have hdraining' : (drainSlot ans w fd).drainDeadline.isSome = true := by
        rw [hsettled.drainDeadline]
        exact hdraining
      have hrests' : ∀ x, RestsAt (drainSlot ans w fd) x := by
        intro x c hc
        by_cases hx : x = fd
        · subst hx
          exact hsettled.rests c hc
        · rw [hsettled.others x hx] at hc
          exact hrests x c hc
      have hfresh' : ∀ x ∈ rest, ((drainSlot ans w fd).slots x).drainCounted = false := by
        intro x hx
        rw [hsettled.others x fun he => hnotin (he ▸ hx)]
        exact hfresh x (List.mem_cons_of_mem _ hx)
      have hcut' : s = false ∨ Untunnelled (drainSlot ans w fd) := by
        refine hcut.imp_right fun h x c hc => ?_
        by_cases hx : x = fd
        · subst hx
          exact hsettled.phase c hc
        · rw [hsettled.others x hx] at hc
          exact h x c hc
      obtain ⟨hevents', hrested⟩ := ih hnodup' hdraining' hrests' hfresh' hcut'
      exact ⟨hevents.trans hevents', hrested⟩

theorem allFds_nodup (w : World) : (allFds w).Nodup := by
  unfold allFds
  refine List.Nodup.filterMap (fun a a' b hb hb' => ?_) List.nodup_range
  simp only [Option.mem_def, Option.dite_none_right_eq_some, Option.some.injEq] at hb hb'
  obtain ⟨_, rfl⟩ := hb
  obtain ⟨_, hfd⟩ := hb'
  exact (Fin.mk.inj hfd).symm

/-- Nobody's connection is on a listener. -/
theorem Kept.bare_listener (h : Kept s w) {f : Fd} (hf : f ∈ w.intakes.map (·.fd) ++ w.admin.toList) :
    Bare (w.slots f) := by
  obtain ⟨own, ho⟩ := h.owned
  have hown := ho.listeners f hf
  exact ho.plain_role (by rw [hown]; nofun) (by rw [hown]; nofun)

/-- A core whose slots say what their owners have may be taken for one whose slots say less. -/
theorem Kept.relax (h : Kept true w) (hdraining : w.drainDeadline.isSome = true) : Kept false w := by
  obtain ⟨own, ho⟩ := h.owned
  exact ⟨h.tagged, ⟨own, ho.relax hdraining⟩, h.distinct, h.steady⟩

/-- The core when its listeners and its idle upstreams are closed, before any connection is. -/
def unlistened (ans : Answers) (w : World) : World :=
  World.closeAll ans
    { w with
      drainDeadline := some (w.clock + w.config.shutdownGrace), intakes := [], intakePartial := []
      admin := none }
    (w.intakes.map (·.fd) ++ w.admin.toList)

def unpooled (ans : Answers) (w : World) : World :=
  World.closeAll ans { w with pool := w.pool.drain.2 } w.pool.drain.1

theorem beginDrain_eq (ans : Answers) (w : World) :
    beginDrain ans w =
      (allFds (unpooled ans (unlistened ans w))).foldl (drainSlot ans)
        (unpooled ans (unlistened ans w)) := by
  have hunlistened : World.closeAll ans
      { World.closeAll ans
          { { w with drainDeadline := some (w.clock + w.config.shutdownGrace) } with intakes := [] }
          (w.intakes.map (·.fd)) with intakePartial := [], admin := none }
      w.admin.toList = unlistened ans w :=
    unlistened_eq { w with drainDeadline := some (w.clock + w.config.shutdownGrace) } ans
      (w.intakes.map (·.fd)) w.admin.toList
  have hadmin : (World.closeAll ans
      { { w with drainDeadline := some (w.clock + w.config.shutdownGrace) } with intakes := [] }
      (w.intakes.map (·.fd))).admin = w.admin := by
    rw [intakes_closed]
  unfold beginDrain
  dsimp only
  rw [hadmin, hunlistened]
  rfl

variable (env) (ans) (calm) in
/-- What comes before the connections of a drain happens beside them. -/
theorem unpooled_happens (h : Kept s w) (hserving : w.drainDeadline = none) :
    Happens env calm s w (unpooled ans (unlistened ans w)) ∧
      (∀ x c, (unpooled ans (unlistened ans w)).slots x = .client c ↔ w.slots x = .client c) ∧
      (unpooled ans (unlistened ans w)).drainDeadline.isSome = true := by
  have hlisteners : Aside w (unlistened ans w) :=
    .unlistened ans _ hserving fun f hf => (Kept.bare_listener h hf).not_client
  have hkept : Kept s (unlistened ans w) := Kept.beside h hlisteners
  obtain ⟨hgone, hnone⟩ := held_drain (unlistened ans w).pool
  have hidle : Aside (unlistened ans w) (unpooled ans (unlistened ans w)) := by
    unfold unpooled
    rw [hgone]
    refine .flushed ans (by rw [hnone, List.append_nil]) fun e he => ?_
    exact (Kept.bare_held hkept he).not_client
  refine ⟨(Relation.ReflTransGen.single (.aside hlisteners)).tail (.aside hidle),
    fun x c => ((aside_apart hidle).clients x c).trans ((aside_apart hlisteners).clients x c), ?_⟩
  unfold unpooled unlistened
  rw [closeAll_drainDeadline]
  show (World.closeAll ans _ _).drainDeadline.isSome = true
  rw [closeAll_drainDeadline]
  rfl

/-- Nobody is counted before the connections are gone through. -/
theorem unpooled_uncounted (ans : Answers)
    (hclients : ∀ x c, (unpooled ans (unlistened ans w)).slots x = .client c ↔ w.slots x = .client c)
    (hnone : ∀ x, (w.slots x).drainCounted = false) (x : Fd) :
    ((unpooled ans (unlistened ans w)).slots x).drainCounted = false := by
  have hbefore := hnone x
  cases hslot : (unpooled ans (unlistened ans w)).slots x with
  | client c =>
      rw [(hclients x c).mp hslot] at hbefore
      exact hbefore
  | admin a =>
      have hlistening : (unlistened ans w).slots x = .admin a := closeAll_admins hslot rfl
      have hfirst : w.slots x = .admin a := closeAll_admins hlistening rfl
      rw [hfirst] at hbefore
      exact hbefore
  | _ => rfl

variable (env) (ans) (calm) in
/-- A drain begins as a course of events. Only where it cuts off a tunnel may slots say less than
their owners have, from then on. -/
theorem beginDrain_course (h : Kept s w) (ht : Tallied w) (hmarked : Marked w)
    (hserving : w.drainDeadline = none) (hrests : ∀ x, RestsAt w x) :
    ∃ s', (s' = s ∨ ¬ Untunnelled w) ∧ Course env calm w (beginDrain ans w) ∧
      Kept s' (beginDrain ans w) ∧ Tallied (beginDrain ans w) ∧ Marked (beginDrain ans w) ∧
      ∀ x, RestsAt (beginDrain ans w) x := by
  obtain ⟨hevents, hclients, hdraining⟩ :=
    unpooled_happens env calm ans h hserving
  have hkept : Kept s (unpooled ans (unlistened ans w)) := Kept.happened h hevents
  have htallied : Tallied (unpooled ans (unlistened ans w)) := ht.happened h hevents
  have hmarked' : Marked (unpooled ans (unlistened ans w)) := Marked.happened hmarked h hevents
  have hrests' : ∀ x, RestsAt (unpooled ans (unlistened ans w)) x := fun x c hc =>
    hrests x c ((hclients x c).mp hc)
  have hfresh := unpooled_uncounted (w := w) ans hclients (ht.uncounted hserving)
  have hends : ∀ s', Kept s' (unpooled ans (unlistened ans w)) →
      (s' = false ∨ Untunnelled (unpooled ans (unlistened ans w))) →
      Course env calm w (beginDrain ans w) ∧ Kept s' (beginDrain ans w) ∧
        Tallied (beginDrain ans w) ∧ Marked (beginDrain ans w) ∧ ∀ x, RestsAt (beginDrain ans w) x := by
    intro s' hkept' hcut
    obtain ⟨hdrained, hrested⟩ := drainSlots_happens env calm ans
      (allFds_nodup _) hdraining hrests' (fun x _ => hfresh x) hcut
    rw [beginDrain_eq]
    exact ⟨(Course.of_happens h hevents).trans (Course.of_happens hkept' hdrained),
      Kept.happened hkept' hdrained, htallied.happened hkept' hdrained,
      Marked.happened hmarked' hkept' hdrained, hrested⟩
  by_cases hnone : Untunnelled w
  · exact ⟨s, .inl rfl, hends s hkept (.inr fun x c hc => hnone x c ((hclients x c).mp hc))⟩
  · refine ⟨false, .inr hnone, hends false ?_ (.inl rfl)⟩
    cases s with
    | false => exact hkept
    | true => exact Kept.relax hkept hdraining

end Draining

section Steps

variable {env} {calm} {s : Bool} {m m' : Machine} {a : Act}

/-- A drain that finds a tunnel to cut off. -/
def Cuts (m : Machine) : Act → Prop
  | .drain _ => ¬ Untunnelled m.world
  | _ => False

theorem Coherent.after {w : World} {tasks : List Task} (h : Coherent s m)
    (hevents : Happens env calm s m.world w)
    (hqueued : ∃ fd front back, tasks = front ++ back ∧ Queued fd w front back) :
    Course env calm m.world w ∧ ∃ s', (s' = s ∨ Cuts m a) ∧ Coherent s' ⟨w, tasks⟩ :=
  ⟨Course.of_happens h.kept hevents, s, .inl rfl, Kept.happened h.kept hevents,
    h.tallied.happened h.kept hevents, Marked.happened h.marked h.kept hevents, hqueued⟩

/-- Something happened that no connection and no work left to do knows of. -/
theorem Coherent.beside {w : World} (h : Coherent s m) (hevent : Event env calm s m.world w)
    (hslots : w.slots = m.world.slots) (hdeadline : w.drainDeadline = m.world.drainDeadline)
    (hintakes : w.intakes = m.world.intakes) (hadmin : w.admin = m.world.admin) :
    Course env calm m.world w ∧ ∃ s', (s' = s ∨ Cuts m a) ∧ Coherent s' { m with world := w } := by
  obtain ⟨fd, front, back, htasks, hqueued⟩ := h.queued
  refine h.after (.single hevent) ⟨fd, front, back, htasks, ?_, fun hsome => ?_,
    hqueued.waits.same hdeadline hintakes hadmin, fun x hx c hc => ?_⟩
  · cases front with
    | nil => trivial
    | cons task rest =>
        refine ⟨hqueued.left.1.imp_right fun h => h.imp_right fun ⟨hretry, hdue⟩ => ?_,
          hqueued.left.2⟩
        obtain ⟨c, hc, hdue'⟩ := hdue.due
        exact ⟨hretry, ⟨c, by rw [hslots, hc], hdue'⟩⟩
  · unfold Served
    rw [hslots]
    exact hqueued.served hsome
  · rw [hslots] at hc
    exact hqueued.rests x hx c hc

/-- With no work left every connection rests. -/
theorem Coherent.rested (h : Coherent s m) (hidle : m.tasks = []) (x : Fd) :
    RestsAt m.world x := by
  obtain ⟨fd, front, back, htasks, hqueued⟩ := h.queued
  rw [hidle] at htasks
  exact hqueued.rests x (.inr (List.append_eq_nil_iff.mp htasks.symm).1)

/-- A step of the loop is a course of events, and leaves the core in order. -/
theorem coherent_step (h : Coherent s m) (hcomposed : Composed calm m a) (htime : OnTime m a)
    (hstep : step env m a = some m') :
    Course env calm m.world m'.world ∧ ∃ s', (s' = s ∨ Cuts m a) ∧ Coherent s' m' := by
  cases a with
  | turn ans =>
      obtain ⟨fd, front, back, htasks, hqueued⟩ := h.queued
      simp only [step] at hstep
      split at hstep
      · cases hstep
      · rename_i task rest hwork
        split at hstep
        · rename_i hready
          simp only [Bool.and_eq_true] at hready
          obtain ⟨⟨-, hanswers⟩, hfits⟩ := hready
          cases hstep
          cases front with
          | nil =>
              rw [List.nil_append, hwork] at htasks
              rw [← htasks] at hqueued
              obtain ⟨hevents, hnext⟩ := back_queued env calm h.kept
                hqueued.waits (fun x => hqueued.rests x (.inr rfl)) hfits hanswers
              obtain ⟨fd', front', back', hsplit, hqueued'⟩ := hnext
              exact h.after hevents ⟨fd', front', back', hsplit, hqueued'⟩
          | cons first more =>
              rw [hwork, List.cons_append, List.cons.injEq] at htasks
              obtain ⟨rfl, rfl⟩ := htasks
              have hcalm : task = .advance fd → ∀ c, m.world.slots fd = .client c → Calm calm c := by
                rintro rfl
                exact hcomposed fd _ hwork
              obtain ⟨hevents, hqueued'⟩ := front_queued env ans h.kept hqueued hcalm
                (untaken_of_fits hanswers)
              exact h.after hevents ⟨fd, _, back, (List.append_assoc ..).symm, hqueued'⟩
        · cases hstep
  | complete op outcome ans =>
      simp only [step] at hstep
      split at hstep
      · rename_i hready
        simp only [Bool.and_eq_true, List.isEmpty_iff, List.contains_iff_mem] at hready
        obtain ⟨⟨⟨⟨-, hidle⟩, hop⟩, hfits⟩, hanswers⟩ := hready
        cases hstep
        have hrested := h.rested hidle
        unfold dispatch
        dsimp only
        split
        · rename_i hstale
          obtain ⟨-, hlate⟩ := (stale_iff h.kept.tagged hop htime outcome).mp hstale
          obtain ⟨hevents, haloof⟩ := dropStale_happens env calm s hop
            (.inr hlate) hfits
          obtain ⟨hevents', hqueued⟩ := aloof_queued hevents haloof hrested
          exact h.after hevents' hqueued
        · rename_i hlive
          by_cases hclose : op.kind = .close
          · have hkind := (tags_of h.kept.tagged hop).1
            have hdelivered : deliver env ans (m.world.retire op outcome) op outcome
                (stampsOf m.world op outcome) = (m.world.retire op outcome, []) := by
              unfold deliver
              rw [hkind, hclose]
            have hdropped : Happens env calm s m.world (m.world.retire op outcome) :=
              .single (.aside (.dropped outcome hop (.inl hclose)))
            have haloof : Aloof m.world (m.world.retire op outcome) :=
              ⟨fun _ _ => .rfl, rfl, rfl, rfl⟩
            rw [hdelivered]
            obtain ⟨hevents', hqueued⟩ := aloof_queued hdropped haloof hrested
            exact h.after hevents' hqueued
          · have hnow : op.bumps = m.world.bumps op.fd := by
              by_contra hlate
              exact hlive ((stale_iff h.kept.tagged hop htime outcome).mpr ⟨hclose, hlate⟩)
            obtain ⟨hevents, hqueued⟩ := deliver_queued env calm ans h.kept
              h.tallied hop hnow hfits (untaken_of_fits hanswers) hrested
            exact h.after hevents hqueued
      · cases hstep
  | drain ans =>
      simp only [step] at hstep
      split at hstep
      · rename_i hready
        simp only [Bool.and_eq_true, List.isEmpty_iff, Option.isNone_iff_eq_none] at hready
        obtain ⟨⟨⟨-, hidle⟩, -⟩, hserving⟩ := hready
        cases hstep
        obtain ⟨s', hs', hcourse, hkept, htallied, hmarked, hrested⟩ :=
          beginDrain_course env calm ans h.kept h.tallied h.marked hserving (h.rested hidle)
        refine ⟨hcourse, s', hs', hkept, htallied, hmarked, (beginDrain ans m.world).notify,
          [], [], rfl, trivial, fun hnone => absurd rfl hnone, .nothing, fun x _ => hrested x⟩
      · cases hstep
  | stop =>
      cases hstep
      exact h.beside (.aside .stopped) rfl rfl rfl rfl
  | publish routes =>
      cases hstep
      exact h.beside (.published routes) rfl rfl rfl rfl
  | elapse time =>
      cases hstep
      exact h.beside (.elapsed time) rfl rfl rfl rfl
  | send up bytes =>
      simp only [step] at hstep
      split at hstep
      · rename_i hopen
        cases hstep
        exact h.beside (.aside (.sent bytes hopen)) rfl rfl rfl rfl
      · cases hstep

end Steps

section Beginnings

/-- A core before its first completion, with nothing left to do. -/
def begun (config : Config) (fixtures : Fixtures) (pool : Nat × Nat) (routes : Snapshot)
    (routeSlots : Nat → RouteSlot) (inflight : Nat → Nat) : Machine :=
  ⟨initial config fixtures pool routes routeSlots inflight, []⟩

variable {config : Config} {fixtures : Fixtures} {pool : Nat × Nat} {routes : Snapshot}
  {routeSlots : Nat → RouteSlot} {inflight : Nat → Nat}

/-- What is in flight at first is what was armed. -/
theorem begun_flight {f : Fd} {k : Kind}
    (h : flightOf (initial config fixtures pool routes routeSlots inflight) f k ≠ 0) :
    (k, f) ∈ fixtures.armed := by
  obtain ⟨op, hop, hconcerns⟩ := List.countP_pos_iff.mp (Nat.pos_of_ne_zero h)
  obtain ⟨p, hp, rfl⟩ := List.mem_map.mp hop
  simp only [concerns, Bool.and_eq_true, beq_iff_eq] at hconcerns
  obtain ⟨⟨⟨rfl, rfl⟩, -⟩, -⟩ := hconcerns
  exact hp

theorem intake_listens (i : Intake) : Kind.ofListener (Intake.kind i) := by
  unfold Intake.kind
  split <;> exact trivial

theorem armed_fixture {f : Fd} {k : Kind} (h : (k, f) ∈ fixtures.armed) :
    (k = .notify ∧ f = fixtures.notify) ∨
      (Kind.ofListener k ∧ f ∈ fixtures.intakes.map (·.fd) ++ fixtures.admin.toList) := by
  unfold Fixtures.armed at h
  rcases List.mem_append.mp h with h | h
  · rcases List.mem_cons.mp h with h | h
    · exact .inl (Prod.mk.inj h)
    · obtain ⟨i, hi, he⟩ := List.mem_map.mp h
      obtain ⟨rfl, rfl⟩ := Prod.mk.inj he
      exact .inr ⟨intake_listens i, List.mem_append_left _ (List.mem_map_of_mem hi)⟩
  · obtain ⟨fd, hfd, he⟩ := List.mem_map.mp h
    obtain ⟨rfl, rfl⟩ := Prod.mk.inj he
    exact .inr ⟨trivial, List.mem_append_right _ hfd⟩

theorem begun_owned : Owned true (viewOf (initial config fixtures pool routes routeSlots inflight))
    fun f => if fixtures.all.contains f then .fixture else .nobody := by
  let v := viewOf (initial config fixtures pool routes routeSlots inflight)
  have hempty : ∀ f r, v.role f = r → r = .empty := fun _ _ h => h.symm
  have hclient : ∀ f t, v.role f ≠ .client t := fun f t h => by cases hempty f _ h
  have hdraining : v.draining = false := rfl
  refine ⟨fun f => ?_, fun f hf => ?_, ?_, fun e he => absurd he List.not_mem_nil, List.nodup_nil,
    fun f hf => absurd hf List.not_mem_nil, List.nodup_nil, fun d t u hd => absurd hd (hclient d t),
    fun d t u hd => absurd hd (hclient d t), fun u d hu => ?_,
    fun d t hd => absurd hd (hclient d t), fun u a hu => ?_, fun hs => ?_, fun hd => ?_⟩
  · split
    · rename_i hmem
      exact ⟨hmem, fun k hk => armed_fixture (begun_flight hk), trivial, fun _ => rfl⟩
    · rename_i hfree
      refine ⟨Bool.eq_false_iff.mpr hfree, fun k => ?_, trivial, fun _ => rfl⟩
      by_contra hk
      refine hfree (List.contains_iff_mem.mpr ?_)
      rcases armed_fixture (begun_flight hk) with ⟨-, rfl⟩ | ⟨-, hlistener⟩
      · exact List.mem_append_right _ (List.mem_singleton.mpr rfl)
      · exact List.mem_append_left _ hlistener
  · exact if_pos (List.contains_iff_mem.mpr (List.mem_append_left _ hf))
  · exact if_pos (List.contains_iff_mem.mpr (List.mem_append_right _ (List.mem_singleton.mpr rfl)))
  · cases hempty u _ hu
  · cases hempty u _ hu
  · cases hs
  · cases hdraining.symm.trans hd

theorem begun_tagged : Tagged (initial config fixtures pool routes routeSlots inflight) := by
  refine ⟨fun f => (Nat.zero_mod GENERATIONS).symm, fun op hop => ?_, fun op hop => ?_,
    fun op hop _ _ => ?_⟩
  all_goals
    obtain ⟨p, -, rfl⟩ := List.mem_map.mp hop
  · rw [Nat.zero_mod]
  · exact Nat.le_refl 0
  · rfl

theorem begun_coherent :
    Coherent true (begun config fixtures pool routes routeSlots inflight) := by
  have hnobody : ∀ x c,
      (initial config fixtures pool routes routeSlots inflight).slots x ≠ .client c :=
    fun _ _ hc => by cases hc
  exact ⟨⟨begun_tagged, ⟨_, begun_owned⟩, fixtures.distinct, fun x c hc => absurd hc (hnobody x c)⟩,
    ⟨fun _ _ => rfl, fun _ _ ha => by cases ha⟩, fun x hx => absurd rfl hx, fixtures.notify, [], [], rfl,
    trivial, fun hnone => absurd rfl hnone, .nothing, fun x _ c hc => absurd hc (hnobody x c)⟩

theorem composed_free {m : Machine} {a : Act} : Composed false m a := by
  cases a with
  | turn => exact fun _ _ _ _ _ hcalm => absurd hcalm Bool.false_ne_true
  | _ => trivial

/-- A step whose completion comes in time is a course of events, and the core stays in order. -/
theorem timely_step {env : Outside} {s : Bool} {m m' : Machine} {a : Act} (h : Coherent s m)
    (htime : OnTime m a) (hstep : step env m a = some m') :
    Course env false m.world m'.world ∧ ∃ s', Coherent s' m' := by
  obtain ⟨hcourse, s', -, hcoherent⟩ := coherent_step h composed_free htime hstep
  exact ⟨hcourse, s', hcoherent⟩

/-- What every event keeps, every run keeps in which no completion is late by a whole round of
generations. -/
theorem always_of_events {env : Outside} {inv : World → Prop} {good : Machine → Prop}
    (hkeeps : ∀ s w w', Kept s w → Event env false s w w' → inv w → inv w')
    (hgood : ∀ m, inv m.world → good m)
    (hbegun : inv (initial config fixtures pool routes routeSlots inflight)) {acts : List Act}
    (htime : Meets (step env) OnTime (begun config fixtures pool routes routeSlots inflight) acts) :
    Always (step env) good (begun config fixtures pool routes routeSlots inflight) acts := by
  have hstep : ∀ m a m', ((∃ s, Coherent s m) ∧ inv m.world) → OnTime m a → step env m a = some m' →
      (∃ s, Coherent s m') ∧ inv m'.world := by
    rintro m a m' ⟨⟨s, hcoherent⟩, hinv⟩ htime hnext
    obtain ⟨hcourse, hcoherent'⟩ := timely_step hcoherent htime hnext
    exact ⟨hcoherent', hcourse.keeps hkeeps hinv⟩
  exact always_of_meets hstep (fun m hm => hgood m hm.2) ⟨⟨true, begun_coherent⟩, hbegun⟩ htime

end Beginnings

section Least

/-- The core that the runs below are runs of: one plaintext listener, and one endpoint to which
every request goes. -/
def leastConfig : Config where
  core := 0
  proxyProtocol := none
  connectTimeout := 1
  responseTimeout := 1
  maxConnectAttempts := 1
  readBufSize := 4096
  mirrorMaxBody := 0
  shutdownGrace := 1
  tls := false
  dispatch := false
  mirror := false

def leastEndpoint : SocketAddr := ⟨.v4 ⟨#[0, 0, 0, 0], rfl⟩, 80, 0⟩

def leastSnapshot : Snapshot where
  table :=
    { defaultBackend := some 0
      backends := [⟨[], [⟨leastEndpoint, 1⟩], .roundRobin, .http1, 0, none⟩] }
  routeSlots := []
  backendSlots := [[0]]
  indexed := by decide

/-- Descriptors have numerals. -/
local instance fdRoom : NeZero 2147483648 := ⟨Nat.succ_ne_zero _⟩

theorem least_distinct :
    (([⟨3, false, false⟩] : List Intake).map Intake.fd ++ (none : Option Fd).toList ++ [4]).Nodup := by
  decide

def leastFixtures : Fixtures := ⟨[⟨3, false, false⟩], none, 4, least_distinct⟩

def leastOutside : Outside where
  rx := ⟨fun _ => true, fun _ _ => false⟩
  enc := ⟨fun _ => [], fun _ _ _ => none, fun _ _ _ => none⟩
  proxyHeader := fun _ => .incomplete
  adminResponse := fun _ => []

def leastCore : Machine :=
  begun leastConfig leastFixtures (1, 1) leastSnapshot (fun _ => {}) (fun _ => 0)

/-- What the world around that core answers when nothing is asked of it. -/
def leastAnswers : Answers := { requestId := ⟨List.replicate 32 48, rfl, rfl⟩ }

/-- The operation that core has in flight on a descriptor since a number of bumps. -/
def leastOp (k : Kind) (fd : Fd) (bumps epoch : Nat) : Op := ⟨k, fd, tag k bumps fd, [], bumps, epoch⟩

/-- Whether a completion comes in time. -/
def comesInTime (m : Machine) : Act → Bool
  | .complete op _ _ => m.world.bumps op.fd < op.bumps + GENERATIONS
  | _ => true

theorem onTime_of_comes {m : Machine} {a : Act} (h : comesInTime m a = true) : OnTime m a := by
  cases a with
  | complete op outcome ans =>
      show m.world.bumps op.fd < op.bumps + GENERATIONS
      exact of_decide_eq_true h
  | _ => trivial

end Least

end Ramjet.Engine.Worker.Coherence
