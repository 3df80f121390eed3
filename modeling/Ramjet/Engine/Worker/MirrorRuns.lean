/- digest: Every run keeps what is noted of it in agreement with the mirror lane. -/

import Ramjet.Engine.Worker.Coherence
import Ramjet.Engine.Worker.MirrorNotes

set_option autoImplicit false
set_option relaxedAutoImplicit false

namespace Ramjet.Engine.Worker.MirrorRuns

open Ramjet.Base.Octets
open Ramjet.Base.Net
open Ramjet.Base.Machine
open Ramjet.Engine.Codec.BodyFraming
open Ramjet.Engine.IdlePool
open Ramjet.Engine.Worker.Connection
open Ramjet.Engine.Worker.Core
open Ramjet.Engine.Worker.Requests
open Ramjet.Engine.Worker.Handlers
open Ramjet.Engine.Worker.Loop
open Ramjet.Engine.Worker.Keeping
open Ramjet.Engine.Worker.Alterations
open Ramjet.Engine.Worker.Coherence
open Ramjet.Engine.Worker.Lanes
open Ramjet.Engine.Worker.Effects
open Ramjet.Engine.Worker.Continuity
open Ramjet.Engine.Worker.Mirroring
open Ramjet.Engine.Worker.MirrorBooks
open Ramjet.Engine.Worker.MirrorNotes
open Ramjet.Router.Rule
open Ramjet.Router.Stats

section Steps

/-- What an observer notes agrees with a core of this configuration: with the lane's counters, and
with every connection there is. -/
structure Logged (config : Config) (o : Watched) : Prop where
  same : o.machine.world.config = config
  booked : Booked (lane o.machine.world) o.watch
  older : ∀ r, o.watch.Knows r → r.connection ≤ o.watch.connections r.fd
  stands : ∀ fd c, o.machine.world.slots fd = .client c →
    Stands o.watch config fd (o.watch.connections fd) c

variable {env : Outside} {config : Config} {o o' : Watched} {m m' : Machine} {a : Act} {s : Bool}

/-- Where there is nobody to move on, nothing happens. -/
theorem advance_nobody {w : World} {fd : Fd} (ans : Answers)
    (hnobody : ∀ c, w.slots fd ≠ .client c) : advance env ans w fd = (w, []) := by
  cases hslot : w.slots fd with
  | client c => exact absurd hslot (hnobody c)
  | _ => simp only [advance, hslot]

theorem nobody_of_movedOn {ans : Answers} {fd : Fd} {rest : List Core.Task}
    (hwork : m.tasks = .advance fd :: rest) (hidle : movedOn m (.turn ans) = none) (c : Conn) :
    m.world.slots fd ≠ .client c := by
  intro hslot
  simp [movedOn, hwork, hslot] at hidle

/-- A step that moves no connection on is nothing to the lane. -/
theorem step_lane (hidle : movedOn m a = none) (hstep : step env m a = some m') :
    lane m'.world = lane m.world := by
  cases a with
  | turn ans =>
      simp only [step] at hstep
      split at hstep
      · cases hstep
      · rename_i task rest hwork
        split at hstep
        · cases hstep
          cases task with
          | deal channel tls ready => exact lane_deal ..
          | notes => exact lane_notes ..
          | sweep fds now =>
              cases fds with
              | nil => rfl
              | cons fd rest => exact lane_sweepClient ..
          | advance fd =>
              show lane (advance env ans m.world fd).1 = lane m.world
              rw [advance_nobody ans (nobody_of_movedOn hwork hidle)]
          | drive fd => exact lane_drive ..
          | retryOrFail fd => exact lane_retryOrFail ..
        · cases hstep
  | complete op outcome ans =>
      simp only [step] at hstep
      split at hstep
      · cases hstep
        exact lane_dispatch ..
      · cases hstep
  | drain ans =>
      simp only [step] at hstep
      split at hstep
      · cases hstep
        exact lane_beginDrain ..
      · cases hstep
  | stop | publish | elapse =>
      cases hstep
      rfl
  | send up bytes =>
      simp only [step] at hstep
      split at hstep
      · cases hstep
        rfl
      · cases hstep

/-- Nor to what any connection's requests are. -/
theorem step_onward (hkept : Coherent s m) (hidle : movedOn m a = none)
    (hstep : step env m a = some m') : Arises Onward m.world m'.world := by
  have hfree : ∀ x, m.world.opened x = false → ∀ c, m.world.slots x ≠ .client c :=
    fun x hx => (Kept.bare_free hkept.kept hx).not_client
  by_cases hmoves : ∃ ans fd rest, a = .turn ans ∧ m.tasks = .advance fd :: rest
  · obtain ⟨ans, fd, rest, rfl, hwork⟩ := hmoves
    have hsame : m'.world = m.world := by
      have hnobody := nobody_of_movedOn hwork hidle
      simp only [step, hwork] at hstep
      split at hstep
      · cases hstep
        show (advance env ans m.world fd).1 = m.world
        rw [advance_nobody ans hnobody]
      · cases hstep
    rw [hsame]
    exact Descends.arises (.refl (onward_steadfast env).toGentle _)
  · exact step_arises (onward_steadfast env) hfree
      (fun ans hans fd rest hwork => hmoves ⟨ans, fd, rest, hans, hwork⟩) hstep

theorem movedOn_world {ans : Answers} {fd : Fd} {c : Conn}
    (hmoved : movedOn m a = some (ans, fd, c)) (hstep : step env m a = some m') :
    m.world.slots fd = .client c ∧ m'.world = (advance env ans m.world fd).1 := by
  unfold movedOn at hmoved
  cases a with
  | turn ans' =>
      dsimp only at hmoved
      split at hmoved
      · rename_i fd' rest hwork
        split at hmoved
        · rename_i d hslot
          cases hmoved
          refine ⟨hslot, ?_⟩
          simp only [step, hwork] at hstep
          split at hstep
          · cases hstep
            rfl
          · cases hstep
        · cases hmoved
      · cases hmoved
  | _ => cases hmoved

theorem appears_of_new {w w' : World} {fd : Fd} {c : Conn} (hnew : ∀ c, w.slots fd ≠ .client c)
    (hslot : w'.slots fd = .client c) : appears w w' fd = true := by
  unfold appears
  rw [hslot]
  split
  · rename_i d hd
    exact absurd hd (hnew d)
  · rfl
  · rename_i hnone
    exact absurd rfl (hnone c)

theorem appears_of_old {w w' : World} {fd : Fd} {c : Conn} (hslot : w.slots fd = .client c) :
    appears w w' fd = false := by
  unfold appears
  rw [hslot]

/-- A connection that has just begun stands to nothing of what was noted. -/
theorem newClient_stands {s : Watch} {config : Config} {fd : Fd} {k : Nat} (ans : Answers)
    (w : World) (tls : Bool) (hfresh : ∀ r, s.Knows r → r.fd = fd → r.connection ≠ k) :
    Stands s config fd k (newClient ans w tls) := by
  have hmirror : (newClient ans w tls).mirror = none := by
    unfold newClient
    dsimp only
    split <;> rfl
  have hcurrent : (newClient ans w tls).book.current = none := by
    unfold newClient
    dsimp only
    split <;> rfl
  refine ⟨fun _ => ⟨hmirror, hcurrent⟩, fun r hknown hfd hk => ?_, fun p hp hr _ _ _ => ?_,
    fun copy hcopy => ?_⟩
  · exact absurd hk (hfresh r hknown hfd)
  · exact absurd (by rw [hr]) (hfresh p.request (.inl (List.mem_map_of_mem hp)) (by rw [hr]))
  · rw [hmirror] at hcopy
    cases hcopy

/-- A step that moves no connection on. -/
theorem logged_still (h : Logged config o) (hkept : Coherent s o.machine)
    (hidle : movedOn o.machine a = none) (hstep : step env o.machine a = some m') :
    Logged config ⟨m', o.watch.next env o.machine a m'⟩ := by
  have hlane := step_lane hidle hstep
  have hconfig : m'.world.config = o.machine.world.config := congrArg Lane.config hlane
  unfold Watch.next
  rw [hidle]
  dsimp only
  refine ⟨hconfig.trans h.same, ?_, fun r hknown => ?_, fun fd c' hslot' => ?_⟩
  · rw [hlane]
    obtain ⟨hcopies, hskips, hfailures, honce, horigin, hdistinct, hdue, hfaithful⟩ := h.booked
    exact ⟨hcopies, hskips, hfailures, honce, horigin, hdistinct, hdue, hfaithful⟩
  · exact (h.older r hknown).trans (Nat.le_add_right _ _)
  · dsimp only
    rcases step_onward hkept hidle hstep fd c' hslot' with
      ⟨c, hslot, honward⟩ | ⟨hnew, ans, w, tls, hc⟩
    · rw [appears_of_old hslot]
      exact ((h.stands fd c hslot).onward honward).counted rfl rfl
    · rw [appears_of_new hnew hslot']
      refine (newClient_stands ans w tls fun r hknown hfd => ?_).onward hc
      have hle := h.older r hknown
      rw [hfd] at hle
      exact (Nat.lt_succ_of_le hle).ne

theorem planned_config {l l' : Lane} {framing : Framing} {plan : Option Plan}
    {made : Option MirrorCopy} (hplanned : Planned l framing plan l' made) :
    l'.config = l.config := by
  cases hplanned with
  | settled _ _ hcount => rcases hcount with rfl | rfl <;> rfl
  | _ => rfl

theorem deed_config {w : World} {ans : Answers} {c c₁ : Conn} {l : Lane}
    (hdeed : Deed env ans w c l c₁) : l.config = w.config := by
  cases hdeed with
  | nothing => rfl
  | begun _ _ _ _ _ hplanned => exact planned_config hplanned
  | taken _ _ _ _ _ _ _ hlane =>
      rw [hlane]
      split
      · cases c.mirror with
        | none => rfl
        | some copy =>
            rw [Option.map_some, Option.elim_some]
            unfold Lane.hand
            split
            · rfl
            · split <;> rfl
      · rfl

/-- A turn that moves a connection on. -/
theorem logged_moved (h : Logged config o) {ans : Answers} {fd : Fd} {c : Conn}
    (hmoved : movedOn o.machine a = some (ans, fd, c)) (hstep : step env o.machine a = some m') :
    Logged config ⟨m', o.watch.next env o.machine a m'⟩ := by
  obtain ⟨hslot, hworld⟩ := movedOn_world hmoved hstep
  have hstands := h.stands fd c hslot
  obtain ⟨hothers, c₁, c', hdeed, hafter, honward⟩ := advance_moved hslot hstands.idle
  rw [← hworld] at hothers hdeed hafter
  have hconfig : m'.world.config = o.machine.world.config := deed_config hdeed
  have hold : ∀ x d, m'.world.slots x = .client d →
      appears o.machine.world m'.world x = false := by
    intro x d hd
    by_cases hx : x = fd
    · rw [hx]
      exact appears_of_old hslot
    · exact appears_of_old (hothers x d hx hd)
  obtain ⟨hbooked, hafterward⟩ := deed_noted h.booked (h.same ▸ hstands) hdeed honward
  rw [h.same] at hafterward
  unfold Watch.next
  rw [hmoved]
  dsimp only
  rw [hafter, Option.bind_some]
  refine ⟨hconfig.trans h.same, ?_, fun r hknown => ?_, fun x d hd => ?_⟩
  · obtain ⟨hcopies, hskips, hfailures, honce, horigin, hdistinct, hdue, hfaithful⟩ := hbooked
    exact ⟨hcopies, hskips, hfailures, honce, horigin, hdistinct, hdue, hfaithful⟩
  · rcases knows_note hknown with hknown | rfl
    · exact (h.older r hknown).trans (Nat.le_add_right _ _)
    · exact Nat.le_add_right _ _
  · show Stands _ _ _ (o.watch.connections x + if appears _ _ x then 1 else 0) _
    dsimp only at hd ⊢
    rw [hold x d hd]
    by_cases hx : x = fd
    · subst hx
      have hsame : c' = d := by
        unfold after at hafter
        rw [hd, Option.some.injEq] at hafter
        exact hafter.symm
      subst hsame
      exact hafterward.counted rfl rfl
    · have hfar : (⟨fd, o.watch.connections fd, c.book.past.length⟩ : Request).fd ≠ x := Ne.symm hx
      exact ((h.stands x d (hothers x d hx hd)).elsewhere hfar (sampling env ans o.machine.world c)
        c'.book.exchanges[c.book.past.length]?
        (fates (lane o.machine.world) (lane m'.world)
          c'.book.exchanges[c.book.past.length]?)).counted rfl rfl

/-- Every step keeps what is noted in agreement with the core. -/
theorem logged_step (h : Logged config o) (hkept : Coherent s o.machine)
    (hstep : observe env o a = some o') : Logged config o' := by
  obtain ⟨m', hnext, rfl⟩ := Option.map_eq_some_iff.mp hstep
  cases hmoved : movedOn o.machine a with
  | none => exact logged_still h hkept hmoved hnext
  | some moved => exact logged_moved h hmoved hnext

end Steps

section Runs

variable {config : Config} {fixtures : Fixtures} {pool : Nat × Nat} {routes : Snapshot}
  {routeSlots : Nat → RouteSlot} {inflight : Nat → Nat}

/-- An observer changes nothing of what it observes. -/
theorem observed_run (env : Outside) (o : Watched) (acts : List Act) :
    (run (observe env) o acts).map Watched.machine = run (step env) o.machine acts := by
  induction acts generalizing o with
  | nil => rfl
  | cons a acts ih =>
      simp only [run, observe]
      cases hstep : step env o.machine a with
      | none => rfl
      | some m' =>
          rw [Option.map_some]
          exact ih ⟨m', o.watch.next env o.machine a m'⟩

theorem observed_meets {env : Outside} {ok : Machine → Act → Prop} {o : Watched} {acts : List Act}
    (h : Meets (step env) ok o.machine acts) :
    Meets (observe env) (fun o a => ok o.machine a) o acts := by
  induction acts generalizing o with
  | nil => trivial
  | cons a acts ih =>
      refine ⟨h.1, fun o' hnext => ?_⟩
      obtain ⟨m', hstep, rfl⟩ := Option.map_eq_some_iff.mp hnext
      exact ih (h.2 m' hstep)

theorem begun_logged :
    Logged config ⟨begun config fixtures pool routes routeSlots inflight, {}⟩ := by
  have hnobody : ∀ fd c, (begun config fixtures pool routes routeSlots inflight).world.slots fd ≠
      .client c := fun _ _ hslot => by cases hslot
  refine ⟨rfl, ?_, fun r hknown => ?_, fun fd c hslot => absurd hslot (hnobody fd c)⟩
  · exact ⟨rfl, rfl, rfl, List.nodup_nil, fun _ h => absurd h List.not_mem_nil, List.nodup_nil,
      fun _ h => absurd h List.not_mem_nil, fun _ h => absurd h List.not_mem_nil⟩
  · rcases hknown with hmem | hmem <;> cases hmem

/-- What follows from such agreement holds in every state of every run in which no completion is
late by a whole round of generations. -/
theorem always_of_logged {env : Outside} {good : Watched → Prop}
    (hgood : ∀ o, Logged config o → good o) {acts : List Act}
    (htime : Meets (step env) OnTime (begun config fixtures pool routes routeSlots inflight) acts) :
    Always (observe env) good ⟨begun config fixtures pool routes routeSlots inflight, {}⟩ acts := by
  have hstep : ∀ o a o', (∃ s, Coherent s o.machine) ∧ Logged config o → OnTime o.machine a →
      observe env o a = some o' → (∃ s, Coherent s o'.machine) ∧ Logged config o' := by
    rintro o a o' ⟨⟨s, hcoherent⟩, hlogged⟩ hcomes hnext
    have hlogged' := logged_step hlogged hcoherent hnext
    obtain ⟨m', hstep, rfl⟩ := Option.map_eq_some_iff.mp hnext
    exact ⟨(timely_step hcoherent hcomes hstep).2, hlogged'⟩
  exact always_of_meets hstep (fun o ho => hgood o ho.2) ⟨⟨true, begun_coherent⟩, begun_logged⟩
    (observed_meets htime)

end Runs

section Samples

attribute [local instance] fdRoom

def mirrorConfig : Config := { leastConfig with mirror := true, mirrorMaxBody := 8 }

/-- Every path, to the one backend there is, of which every request is mirrored to it again. -/
def mirrorRule : PathRule :=
  PathRule.new (ascii "/") .prefixed none 0
    (RuleExtras.build none (some (MirrorSpec.new 0 100 none)))

def mirrorSnapshot : Snapshot where
  table := { leastSnapshot.table with catchAll := some ⟨[mirrorRule]⟩ }
  routeSlots := [0]
  backendSlots := [[0]]
  indexed := by decide

def mirrorCore : Machine :=
  begun mirrorConfig leastFixtures (1, 1) mirrorSnapshot (fun _ => {}) (fun _ => 0)

/-- A request of three bytes is dispatched with the first of them. -/
def posted (rest : List Act) : List Act :=
  let dialled := { leastAnswers with connect := some (6, true) }
  let request := ascii "POST / HTTP/1.1\r\nHost: a\r\nContent-Length: 3\r\n\r\no"
  [.complete (leastOp .accept 3 0 0) (.accepted 5) leastAnswers,
    .complete (leastOp .downRead 5 1 1) (.read request) leastAnswers,
    .turn dialled, .turn leastAnswers, .turn leastAnswers, .turn leastAnswers,
    .turn leastAnswers] ++ rest

/-- The other two come as well. -/
def completed : List Act :=
  posted [.complete (leastOp .downRead 5 1 1) (.read (ascii "ne")) leastAnswers,
    .turn leastAnswers]

/-- The upstream answers before they come. -/
def answeredEarly : List Act :=
  let response := ascii "HTTP/1.1 200 OK\r\nContent-Length: 0\r\n\r\n"
  posted [.send 6 response, .complete (leastOp .upRead 6 0 1) (.read response) leastAnswers,
    .turn leastAnswers]

theorem completed_onTime : Meets (step leastOutside) OnTime mirrorCore completed := by
  have htime : checks (step leastOutside) comesInTime mirrorCore completed = true := by
    decide +kernel
  exact meets_of_checks (fun _ _ => onTime_of_comes) htime

end Samples

section Copies

/-- Every copy a core has enqueued is of the whole body of its request, as that was received, and
no larger than is allowed; and of no request is there a second. -/
structure Copied (most : Nat) (o : Watched) : Prop where
  all : o.machine.world.mirrored = o.watch.counted.filterMap (·.2.copy)
  once : ((o.watch.counted.filter (·.2.copy.isSome)).map (·.1)).Nodup
  faithful : ∀ r copy e, (r, Fate.enqueued copy e) ∈ o.watch.counted →
    ∃ e₁, e = some e₁ ∧ copy.body = e₁.body ∧ Exchange.whole e₁ = true ∧ copy.body.length ≤ most

theorem copied_of_logged {config : Config} {o : Watched} (h : Logged config o) :
    Copied config.mirrorMaxBody o := by
  refine ⟨h.booked.copies, ?_, fun r copy e hcounted => ?_⟩
  · exact h.booked.once.sublist (List.filter_sublist.map _)
  · have hfaithful := h.booked.faithful _ hcounted
    rw [show (lane o.machine.world).config = config from h.same] at hfaithful
    exact hfaithful

theorem copies_faithful (env : Outside) (config : Config) (fixtures : Fixtures) (pool : Nat × Nat)
    (routes : Snapshot) (routeSlots : Nat → RouteSlot) (inflight : Nat → Nat) (acts : List Act)
    (htime : Meets (step env) OnTime
      (begun config fixtures pool routes routeSlots inflight) acts) :
    Always (observe env) (Copied config.mirrorMaxBody)
      ⟨begun config fixtures pool routes routeSlots inflight, {}⟩ acts :=
  always_of_logged (fun _ => copied_of_logged) htime

attribute [local instance] fdRoom

/-- A request sampled and received whole. -/
theorem copies_faithful_completed :
    Always (observe leastOutside) (Copied mirrorConfig.mirrorMaxBody) ⟨mirrorCore, {}⟩ completed :=
  copies_faithful leastOutside mirrorConfig leastFixtures (1, 1) mirrorSnapshot (fun _ => {})
    (fun _ => 0) completed completed_onTime

example : (run (observe leastOutside) ⟨mirrorCore, {}⟩ completed).any
    (fun o => o.machine.world.mirrored.map (·.body) == [ascii "one"]) = true := by
  decide +kernel

end Copies

section Counts

/-- The lane's counters are of requests that were sampled, and of none twice. -/
structure Accounted (o : Watched) : Prop where
  enqueued : o.machine.world.mirrored.length = o.watch.counted.countP (·.2.copy.isSome)
  skipped : o.machine.world.mirrorSkipped = o.watch.counted.countP (·.2.isSkip)
  failed : o.machine.world.mirrorFailed = o.watch.counted.countP (·.2.isFailure)
  origin : ∀ r ∈ o.watch.counted.map (·.1), r ∈ o.watch.sampled.map (·.request)
  once : (o.watch.counted.map (·.1)).Nodup

/-- A request is over once its connection has gone on to another, or has left. -/
def Over (o : Watched) (r : Request) : Prop :=
  r.connection < o.watch.connections r.fd ∨
    ∀ c, o.machine.world.slots r.fd = .client c → r.number < c.book.past.length

attribute [local instance] fdRoom

/-- Whether the first request on a descriptor was sampled and is over, and nothing is counted. -/
def lost (fd : Fd) (o : Watched) : Bool :=
  o.watch.sampled.map (·.request) == [⟨fd, 1, 0⟩] && o.watch.counted.isEmpty &&
    (o.machine.world.slots fd).leaves.all fun c => 0 < c.book.past.length

end Counts

end Ramjet.Engine.Worker.MirrorRuns
