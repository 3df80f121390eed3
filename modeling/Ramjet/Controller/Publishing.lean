/- digest: Generations go up by one a publish, and the loop's own writes publish nothing. -/

import Ramjet.Controller.Rebuild
import Ramjet.Router.RoutingAgreement

set_option autoImplicit false
set_option relaxedAutoImplicit false

namespace Ramjet.Controller.Publishing

open Ramjet.Base.Octets
open Ramjet.Base.AssocMap
open Ramjet.Base.Machine
open Ramjet.Base.Outcome
open Ramjet.Router.Rule
open Ramjet.Router.Table
open Ramjet.Router.Builder
open Ramjet.Router.RoutingAgreement (literalEngine)
open Ramjet.Controller.Objects
open Ramjet.Controller.Annotations
open Ramjet.Controller.Config
open Ramjet.Controller.Translate
open Ramjet.Controller.Compiled
open Ramjet.Controller.Feed
open Ramjet.Controller.OwnWrites
open Ramjet.Controller.Rebuild

section Landing

/-- A write of the controller leaves everything but its own annotation as it was. -/
theorem stripped_land (stores : Stores) (write : Write) :
    stripped (stores.land write).snapshot = stripped stores.snapshot := by
  have hone : ∀ ingress : StoredIngress, strip (write.on ingress).object = strip ingress.object := by
    intro ingress
    unfold Write.on
    cases write with
    | address key entry =>
        dsimp only
        split <;> rfl
    | observed key generation =>
        dsimp only
        split
        · simp only [strip, unobserved]
          rw [retain_insert _ (by simp)]
        · rfl
  unfold stripped Stores.snapshot Stores.land
  simp [hone]

end Landing

section Turning

variable {F : Type} (fl : Floats F) (rx : RegexEngine) (opts : ControllerOpts)

/-- What the loop retains between two turns, its status cache and its writes aside. -/
structure Kept (w w' : World F) : Prop where
  current : w'.current = w.current
  digest : w'.publishedDigest = w.publishedDigest
  published : w'.published = w.published

private theorem kept_writeBack (managed : List ObjectKey) (answer : ServiceAnswer)
    (stuck : Nat → Bool) (w : World F) : Kept w (writeBack managed answer stuck w) := by
  unfold writeBack
  cases w.status with
  | none => exact ⟨rfl, rfl, rfl⟩
  | some writer => exact ⟨rfl, rfl, rfl⟩

private theorem stores_writeBack (managed : List ObjectKey) (answer : ServiceAnswer)
    (stuck : Nat → Bool) (w : World F) : (writeBack managed answer stuck w).stores = w.stores := by
  unfold writeBack
  cases w.status <;> rfl

private theorem kept_reassert (resynced : Bool) (w : World F) :
    Kept w (reassert resynced w) ∧ (reassert resynced w).stores = w.stores := by
  cases resynced <;> exact ⟨⟨rfl, rfl, rfl⟩, rfl⟩

private theorem compiled_reassert (resynced : Bool) (w : World F) :
    compiled fl rx opts (reassert resynced w) = compiled fl rx opts w := by
  cases resynced <;> rfl

/-- A turn of the loop: nothing, or a translation published unless its digest is the last one. -/
inductive Turn (w w' : World F) : Prop where
  | failed (err : BuildError) (hcompiled : compiled fl rx opts w = .error err) (hkept : Kept w w')
  | unchanged (r : Translation F) (hcompiled : compiled fl rx opts w = .ok r)
      (hdigest : w.publishedDigest = some r.digest) (hkept : Kept w w')
  | publishes (r : Translation F) (hcompiled : compiled fl rx opts w = .ok r)
      (hdigest : w.publishedDigest ≠ some r.digest) (hcurrent : w'.current = some r.config)
      (hnew : w'.publishedDigest = some r.digest)
      (hpublished : w'.published = w.published ++ [r.config])

theorem turn_rebuild (w : World F) (resynced : Bool) (answer : ServiceAnswer)
    (stuck : Nat → Bool) :
    Turn fl rx opts w (rebuild fl rx opts (reassert resynced w) answer stuck) ∧
      (rebuild fl rx opts (reassert resynced w) answer stuck).stores = w.stores := by
  obtain ⟨hkept, hstores⟩ := kept_reassert resynced w
  unfold rebuild
  rw [compiled_reassert]
  cases hcompiled : compiled fl rx opts w with
  | error err => exact ⟨.failed err hcompiled hkept, hstores⟩
  | ok r =>
      dsimp only
      have hback := kept_writeBack r.managed answer stuck (publish (reassert resynced w) r)
      rw [stores_writeBack]
      by_cases hdigest : w.publishedDigest = some r.digest
      · have hsame : publish (reassert resynced w) r = reassert resynced w := by
          rw [publish, hkept.digest, if_pos hdigest]
        rw [hsame] at hback ⊢
        exact ⟨.unchanged r hcompiled hdigest ⟨hback.current.trans hkept.current,
          hback.digest.trans hkept.digest, hback.published.trans hkept.published⟩, hstores⟩
      · have hnew : publish (reassert resynced w) r = { reassert resynced w with
            published := (reassert resynced w).published ++ [r.config]
            current := some r.config
            publishedDigest := some r.digest } := by
          rw [publish, hkept.digest, if_neg hdigest]
        rw [hnew] at hback ⊢
        refine ⟨.publishes r hcompiled hdigest hback.current hback.digest ?_, hstores⟩
        rw [hback.published, hkept.published]

/-- A translation reports the digest its configuration carries. -/
theorem compiled_spec {w : World F} {r : Translation F} (h : compiled fl rx opts w = .ok r) :
    r.config.digest = r.digest ∧
      r.config.table.generation = nextGeneration (w.current.map (·.table)) := by
  refine ⟨?_, translate_generation fl rx _ opts _ h⟩
  obtain ⟨table, -, rfl⟩ := translate_announced fl rx _ opts _ h
  rfl

end Turning

section Runs

variable {F : Type} (fl : Floats F) (rx : RegexEngine) (opts : ControllerOpts)

/-- What the loop holds between any two actions. -/
structure Retained (w : World F) : Prop where
  numbered : w.published.map (·.table.generation) =
    (List.range w.published.length).map fun i => min (i + 1) U64_MAX
  distinct : w.published.IsChain fun a b => a.digest ≠ b.digest
  digest : w.publishedDigest = w.published.getLast?.map (·.digest)
  generation : w.current.map (·.table.generation) = some (min w.published.length U64_MAX)

theorem retained_spawn {status : StatusOpts} {stores : Stores} {w : World F}
    (h : spawn status stores = .ok w) : Retained w ∧ w.published = [] := by
  obtain ⟨config, hconfig, h⟩ := bind_eq_ok.mp h
  cases h
  cases hconfig
  exact ⟨⟨rfl, .nil, rfl, rfl⟩, rfl⟩

private theorem Retained.of_kept {w w' : World F} (h : Retained w) (hkept : Kept w w') :
    Retained w' := by
  refine ⟨?_, ?_, ?_, ?_⟩
  · rw [hkept.published]
    exact h.numbered
  · rw [hkept.published]
    exact h.distinct
  · rw [hkept.digest, hkept.published]
    exact h.digest
  · rw [hkept.current, hkept.published]
    exact h.generation

private theorem Retained.of_turn {w w' : World F} (h : Retained w) (ht : Turn fl rx opts w w') :
    Retained w' := by
  cases ht with
  | failed _ _ hkept => exact h.of_kept hkept
  | unchanged _ _ _ hkept => exact h.of_kept hkept
  | publishes r hcompiled hdigest hcurrent hnew hpublished =>
      obtain ⟨hsame, hgeneration⟩ := compiled_spec fl rx opts hcompiled
      have hnext : r.config.table.generation = min (w.published.length + 1) U64_MAX := by
        rw [hgeneration]
        have hheld := h.generation
        cases hw : w.current with
        | none => simp [hw] at hheld
        | some config =>
            simp only [hw, Option.map_some, Option.some.injEq] at hheld
            simp only [Option.map_some, nextGeneration, hheld]
            omega
      refine ⟨?_, ?_, ?_, ?_⟩
      · rw [hpublished, List.map_append, h.numbered, List.length_append, List.length_singleton,
          List.range_succ]
        simp [hnext]
      · rw [hpublished]
        refine List.IsChain.append h.distinct (.singleton _) fun a ha b hb => ?_
        rw [List.head?_cons, Option.mem_some_iff] at hb
        subst hb
        rw [Option.mem_def] at ha
        rintro heq
        rw [h.digest, ha] at hdigest
        exact hdigest (by rw [Option.map_some, heq, hsame])
      · rw [hnew, hpublished]
        simp [hsame]
      · rw [hcurrent, hpublished]
        simp [hnext]

theorem retained_step {w w' : World F} {a : Act} (h : Retained w)
    (hstep : step fl rx opts w a = some w') : Retained w' := by
  cases a with
  | change stores =>
      cases hstep
      exact h.of_kept ⟨rfl, rfl, rfl⟩
  | land write =>
      simp only [step] at hstep
      split at hstep
      · cases hstep
        exact h.of_kept ⟨rfl, rfl, rfl⟩
      · cases hstep
  | rebuild resynced answer stuck =>
      cases hstep
      exact h.of_turn fl rx opts (turn_rebuild fl rx opts w resynced answer stuck).1

/-- Two worlds the translator cannot tell apart, which have published the same. -/
structure Echo (w w' : World F) : Prop where
  stores : stripped w.stores.snapshot = stripped w'.stores.snapshot
  kept : Kept w w'

private theorem Echo.turn {w w' v v' : World F} (h : Echo w w') (hv : Turn fl rx opts w v)
    (hv' : Turn fl rx opts w' v') (hs : v.stores = w.stores) (hs' : v'.stores = w'.stores) :
    Echo v v' := by
  have hcompiled : compiled fl rx opts w' = compiled fl rx opts w := by
    unfold compiled
    rw [h.kept.current, translate_congr fl rx h.stores]
  refine ⟨by rw [hs, hs', h.stores], ?_⟩
  cases hv with
  | failed err he hkept =>
      cases hv' with
      | failed _ _ hkept' =>
          exact ⟨by rw [hkept'.current, hkept.current, h.kept.current],
            by rw [hkept'.digest, hkept.digest, h.kept.digest],
            by rw [hkept'.published, hkept.published, h.kept.published]⟩
      | unchanged _ hr => simp [hcompiled, he] at hr
      | publishes _ hr => simp [hcompiled, he] at hr
  | unchanged r hr hdigest hkept =>
      cases hv' with
      | failed _ he => simp [hcompiled, hr] at he
      | unchanged _ _ _ hkept' =>
          exact ⟨by rw [hkept'.current, hkept.current, h.kept.current],
            by rw [hkept'.digest, hkept.digest, h.kept.digest],
            by rw [hkept'.published, hkept.published, h.kept.published]⟩
      | publishes r' hr' hdigest' =>
          obtain rfl : r = r' := Except.ok.inj (hr.symm.trans (hcompiled.symm.trans hr'))
          exact absurd (h.kept.digest.trans hdigest) hdigest'
  | publishes r hr hdigest hcurrent hnew hpublished =>
      cases hv' with
      | failed _ he => simp [hcompiled, hr] at he
      | unchanged r' hr' hdigest' =>
          obtain rfl : r = r' := Except.ok.inj (hr.symm.trans (hcompiled.symm.trans hr'))
          exact absurd (h.kept.digest.symm.trans hdigest') hdigest
      | publishes r' hr' _ hcurrent' hnew' hpublished' =>
          obtain rfl : r = r' := Except.ok.inj (hr.symm.trans (hcompiled.symm.trans hr'))
          exact ⟨hcurrent'.trans hcurrent.symm, hnew'.trans hnew.symm,
            by rw [hpublished', hpublished, h.kept.published]⟩

/-- One of the controller's own writes coming back. -/
def Act.lands : Act → Bool
  | .land _ => true
  | _ => false

/-- Anything but a change made by somebody else. -/
def Act.own : Act → Bool
  | .change _ => false
  | _ => true

/-- A run without the controller's own writes publishes what the run with them does. -/
private theorem Echo.run {as : List Act} {w w' v : World F} (h : Echo w w')
    (hrun : run (step fl rx opts) w as = some v) :
    ∃ v', run (step fl rx opts) w' (as.filter fun a => !Act.lands a) = some v' ∧ Echo v v' := by
  induction as generalizing w w' with
  | nil =>
      cases hrun
      exact ⟨w', rfl, h⟩
  | cons a as ih =>
      simp only [Ramjet.Base.Machine.run] at hrun
      cases a with
      | change stores =>
          have hnext : Echo { w with stores := stores } { w' with stores := stores } :=
            ⟨rfl, h.kept.current, h.kept.digest, h.kept.published⟩
          exact ih hnext hrun
      | land write =>
          by_cases hsent : write ∈ w.sent
          · simp only [step, hsent, if_true] at hrun
            have hnext : Echo { w with stores := w.stores.land write } w' :=
              ⟨(stripped_land _ _).trans h.stores, h.kept.current, h.kept.digest, h.kept.published⟩
            exact ih hnext hrun
          · simp [step, hsent] at hrun
      | rebuild resynced answer stuck =>
          obtain ⟨hv, hs⟩ := turn_rebuild fl rx opts w resynced answer stuck
          obtain ⟨hv', hs'⟩ := turn_rebuild fl rx opts w' resynced answer stuck
          exact ih (h.turn fl rx opts hv hv' hs hs') hrun

/-- After a translation that announces nothing new, the loop's own doings publish nothing. -/
private theorem quiet_run {as : List Act} (hown : ∀ a ∈ as, Act.own a = true) {w w' : World F}
    {r : Translation F} (hr : compiled fl rx opts w = .ok r)
    (hdigest : w.publishedDigest = some r.digest)
    (hrun : run (step fl rx opts) w as = some w') : w'.published = w.published := by
  induction as generalizing w with
  | nil =>
      cases hrun
      rfl
  | cons a as ih =>
      have hrest : ∀ a ∈ as, Act.own a = true := fun x hx => hown x (List.mem_cons_of_mem _ hx)
      simp only [Ramjet.Base.Machine.run] at hrun
      cases a with
      | change stores => exact absurd (hown _ List.mem_cons_self) (by simp [Act.own])
      | land write =>
          by_cases hsent : write ∈ w.sent
          · simp only [step, hsent, if_true] at hrun
            have hnext : compiled fl rx opts { w with stores := w.stores.land write } = .ok r := by
              rw [← hr]
              exact translate_congr fl rx (stripped_land _ _) _ _
            exact ih (w := { w with stores := w.stores.land write }) hrest hnext hdigest hrun
          · simp [step, hsent] at hrun
      | rebuild resynced answer stuck =>
          obtain ⟨ht, hs⟩ := turn_rebuild fl rx opts w resynced answer stuck
          have hkept : Kept w (rebuild fl rx opts (reassert resynced w) answer stuck) := by
            cases ht with
            | failed _ _ hkept => exact hkept
            | unchanged _ _ _ hkept => exact hkept
            | publishes r' hr' hdigest' =>
                obtain rfl : r = r' := Except.ok.inj (hr.symm.trans hr')
                exact absurd hdigest hdigest'
          have hr' : compiled fl rx opts (rebuild fl rx opts (reassert resynced w) answer stuck) =
              .ok r := by
            unfold compiled at hr ⊢
            rw [hs, hkept.current, hr]
          rw [ih hrest hr' (hkept.digest.trans hdigest) hrun, hkept.published]

end Runs

section Soundness

variable {F : Type} (fl : Floats F) (rx : RegexEngine) (opts : ControllerOpts)

/-- What is true of the loop between any two actions, about the past and about what comes next. -/
structure Sound (w : World F) : Prop where
  numbered : w.published.map (·.table.generation) =
    (List.range w.published.length).map fun i => min (i + 1) U64_MAX
  distinct : w.published.IsChain fun a b => a.digest ≠ b.digest
  suppressed : ∀ resynced answer stuck w',
    step fl rx opts w (.rebuild resynced answer stuck) = some w' →
      (∀ r, compiled fl rx opts w = .ok r →
        w.published.getLast?.map (·.digest) = some r.digest) →
          w'.published = w.published ∧ w'.current = w.current
  publishes : ∀ resynced answer stuck w',
    step fl rx opts w (.rebuild resynced answer stuck) = some w' →
      ∀ r, compiled fl rx opts w = .ok r → w.published.getLast?.map (·.digest) ≠ some r.digest →
        w'.published = w.published ++ [r.config] ∧ w'.current = some r.config
  invisible : ∀ write opts previous,
    translate fl rx (w.stores.land write).snapshot opts previous =
      translate fl rx w.stores.snapshot opts previous
  echoless : ∀ as w', run (step fl rx opts) w as = some w' →
    ∃ v, run (step fl rx opts) w (as.filter fun a => !Act.lands a) = some v ∧
      v.published = w'.published ∧ v.current = w'.current
  quiet : ∀ r, compiled fl rx opts w = .ok r →
    w.published.getLast?.map (·.digest) = some r.digest →
      ∀ as, (∀ a ∈ as, Act.own a = true) → ∀ w', run (step fl rx opts) w as = some w' →
        w'.published = w.published

private theorem Retained.sound {w : World F} (h : Retained w) : Sound fl rx opts w := by
  refine ⟨h.numbered, h.distinct, ?_, ?_, fun write opts previous => ?_, fun as w' hrun => ?_,
    fun r hr hlast as hown w' hrun => ?_⟩
  · intro resynced answer stuck w' hstep hsame
    cases hstep
    cases (turn_rebuild fl rx opts w resynced answer stuck).1 with
    | failed _ _ hkept => exact ⟨hkept.published, hkept.current⟩
    | unchanged _ _ _ hkept => exact ⟨hkept.published, hkept.current⟩
    | publishes r hr hdigest => exact absurd (h.digest.trans (hsame r hr)) hdigest
  · intro resynced answer stuck w' hstep r hr hother
    cases hstep
    cases (turn_rebuild fl rx opts w resynced answer stuck).1 with
    | failed _ he => simp [hr] at he
    | unchanged r' hr' hdigest =>
        obtain rfl : r = r' := Except.ok.inj (hr.symm.trans hr')
        exact absurd (h.digest.symm.trans hdigest) hother
    | publishes r' hr' _ hcurrent _ hpublished =>
        obtain rfl : r = r' := Except.ok.inj (hr.symm.trans hr')
        exact ⟨hpublished, hcurrent⟩
  · exact translate_congr fl rx (stripped_land _ _) _ _
  · obtain ⟨v, hv, hecho⟩ := Echo.run fl rx opts ⟨rfl, ⟨rfl, rfl, rfl⟩⟩ hrun
    exact ⟨v, hv, hecho.kept.published, hecho.kept.current⟩
  · exact quiet_run fl rx opts hown hr (h.digest.trans hlast) hrun

private theorem always_sound {w : World F} (h : Retained w) (as : List Act) :
    Always (step fl rx opts) (Sound fl rx opts) w as := by
  induction as generalizing w with
  | nil => exact h.sound fl rx opts
  | cons a as ih =>
      exact ⟨h.sound fl rx opts, fun w' hstep => ih (retained_step fl rx opts h hstep)⟩

/-- The rebuild loop numbers its publishes one by one up to the largest number, publishes exactly
the changes of its digest, and is never woken into publishing by what it writes itself. -/
theorem rebuild_loop_sound (status : StatusOpts) (stores : Stores) :
    ∃ w : World F, spawn status stores = .ok w ∧
      ∀ as, Always (step fl rx opts) (Sound fl rx opts) w as := by
  have hseed : ∃ w : World F, spawn status stores = .ok w := ⟨_, rfl⟩
  obtain ⟨w, hw⟩ := hseed
  exact ⟨w, hw, fun as => always_sound fl rx opts (retained_spawn hw).1 as⟩

end Soundness

section Saturation

/-- A cluster with one route. -/
def oneRoute : Stores where
  ingresses := [⟨shopIngress (ascii "web") 1 []
    [pathTo (ascii "/") (ascii "Prefix") (ascii "web") ⟨some 80, none⟩] none, []⟩]

/-- A route comes, is compiled, goes, and its absence is compiled. -/
def flap : List Act :=
  [.change oneRoute, .rebuild false none fun _ => false, .change {},
    .rebuild false none fun _ => false]

def flaps : Nat → List Act
  | 0 => []
  | n + 1 => flaps n ++ flap

/-- The digest a first translation of the mirrors has. -/
def firstDigest (stores : Stores) : Option Nat :=
  (translate noFloats literalEngine stores.snapshot {} none).toOption.map (·.digest)

private theorem compiled_samples : ∃ r r' : Translation Unit,
    translate noFloats literalEngine oneRoute.snapshot {} none = .ok r ∧
      translate noFloats literalEngine ({} : Stores).snapshot {} none = .ok r' ∧
        r.digest ≠ r'.digest := by
  have hread : ∀ stores, (firstDigest stores).isSome = true → ∃ r : Translation Unit,
      translate noFloats literalEngine stores.snapshot {} none = .ok r ∧
        firstDigest stores = some r.digest := by
    intro stores hsome
    unfold firstDigest at hsome ⊢
    cases hr : translate noFloats literalEngine stores.snapshot {} none with
    | error err => simp [hr, Except.toOption] at hsome
    | ok r => exact ⟨r, rfl, rfl⟩
  obtain ⟨r, hr, hdigest⟩ := hread oneRoute (by decide +kernel)
  obtain ⟨r', hr', hdigest'⟩ := hread {} (by decide +kernel)
  refine ⟨r, r', hr, hr', fun heq => ?_⟩
  have hsame : firstDigest oneRoute = firstDigest {} := by rw [hdigest, hdigest', heq]
  exact absurd hsame (by decide +kernel)

/-- A changed digest is published, whatever generation it is the turn of. -/
private theorem publishes_change {w : World Unit} {stores : Stores} {r : Translation Unit}
    (hr : translate noFloats literalEngine stores.snapshot {} none = .ok r)
    (hdigest : w.publishedDigest ≠ some r.digest) :
    ∃ w', run (step noFloats literalEngine {}) w
        [.change stores, .rebuild false none fun _ => false] = some w' ∧
      w'.published.length = w.published.length + 1 ∧ w'.publishedDigest = some r.digest := by
  have hcompiled : compiled noFloats literalEngine {} { w with stores := stores } = .ok _ :=
    translate_renumbered noFloats literalEngine stores.snapshot {} none hr _
  refine ⟨_, rfl, ?_⟩
  cases (turn_rebuild noFloats literalEngine {} { w with stores := stores } false none
    fun _ => false).1 with
  | failed _ he => simp [hcompiled] at he
  | unchanged _ hr' hsame =>
      obtain rfl := Except.ok.inj (hcompiled.symm.trans hr')
      exact absurd hsame hdigest
  | publishes _ hr' _ _ hnew hpublished =>
      obtain rfl := Except.ok.inj (hcompiled.symm.trans hr')
      exact ⟨(congrArg List.length hpublished).trans (by simp), hnew⟩

private theorem run_flaps {r r' : Translation Unit}
    (hr : translate noFloats literalEngine oneRoute.snapshot {} none = .ok r)
    (hr' : translate noFloats literalEngine ({} : Stores).snapshot {} none = .ok r')
    (hne : r.digest ≠ r'.digest) {w : World Unit} (hw : w.publishedDigest ≠ some r.digest)
    (n : Nat) : ∃ w', run (step noFloats literalEngine {}) w (flaps n) = some w' ∧
      w'.published.length = w.published.length + 2 * n ∧ w'.publishedDigest ≠ some r.digest := by
  induction n with
  | zero => exact ⟨w, rfl, rfl, hw⟩
  | succ n ih =>
      obtain ⟨w1, hrun1, hlen1, hdigest1⟩ := ih
      obtain ⟨w2, hrun2, hlen2, hdigest2⟩ := publishes_change hr hdigest1
      obtain ⟨w3, hrun3, hlen3, hdigest3⟩ := publishes_change (w := w2) hr' (by
        rw [hdigest2]
        simpa using hne)
      refine ⟨w3, ?_, by omega, ?_⟩
      · have hflap : flap = [.change oneRoute, .rebuild false none fun _ => false] ++
            [.change {}, .rebuild false none fun _ => false] := rfl
        rw [flaps, run_append, hrun1, Option.bind_some, hflap, run_append, hrun2,
          Option.bind_some, hrun3]
      · rw [hdigest3]
        simpa using Ne.symm hne

/-- Once the largest number is reached, two publishes in a row carry it. -/
theorem generation_saturates : ∃ (w w' : World Unit) (as : List Act), spawn {} {} = .ok w ∧
    run (step noFloats literalEngine {}) w as = some w' ∧
      ∃ (i : Nat) (a b : CompiledConfig Unit), w'.published[i]? = some a ∧
        w'.published[i + 1]? = some b ∧ b.table.generation ≠ a.table.generation + 1 := by
  obtain ⟨r, r', hr, hr', hne⟩ := compiled_samples
  have hseed : ∃ w : World Unit, spawn {} {} = .ok w := ⟨_, rfl⟩
  obtain ⟨w, hw⟩ := hseed
  obtain ⟨hretained, hempty⟩ := retained_spawn hw
  obtain ⟨w', hrun, hlen, -⟩ := run_flaps hr hr' hne (w := w) (by
    rw [hretained.digest, hempty]
    simp) 9223372036854775808
  have hend : Retained w' :=
    invariant_run (fun _ _ _ h => retained_step noFloats literalEngine {} h) hretained hrun
  rw [hempty, List.length_nil] at hlen
  have hheld : ∀ i, i < w'.published.length → ∃ config, w'.published[i]? = some config ∧
      config.table.generation = min (i + 1) U64_MAX := by
    intro i hi
    have hmap := congrArg (·[i]?) hend.numbered
    simp only [List.getElem?_map, List.getElem?_range hi] at hmap
    exact ⟨w'.published[i], List.getElem?_eq_getElem hi, by simpa [hi] using hmap⟩
  obtain ⟨a, ha, hgena⟩ := hheld 18446744073709551614 (by omega)
  obtain ⟨b, hb, hgenb⟩ := hheld 18446744073709551615 (by omega)
  refine ⟨w, w', _, hw, hrun, 18446744073709551614, a, b, ha, hb, ?_⟩
  rw [hgena, hgenb]
  decide

end Saturation

end Ramjet.Controller.Publishing
