/- digest: What an event makes of one connection, and that it makes nothing of the others. -/

import Ramjet.Engine.Worker.Arrivals
import Ramjet.Engine.Worker.Frames
import Ramjet.Engine.Worker.Turns

set_option autoImplicit false
set_option relaxedAutoImplicit false

namespace Ramjet.Engine.Worker.Alterations

open Ramjet.Base.Octets
open Ramjet.Base.Net
open Ramjet.Engine.Codec.MessageHead
open Ramjet.Engine.Codec.BodyFraming
open Ramjet.Engine.IdlePool
open Ramjet.Engine.Route
open Ramjet.Engine.Tls
open Ramjet.Engine.Worker.Accounting
open Ramjet.Engine.Worker.Connection
open Ramjet.Engine.Worker.Core
open Ramjet.Engine.Worker.Serving
open Ramjet.Engine.Worker.Requests
open Ramjet.Engine.Worker.Handlers
open Ramjet.Engine.Worker.Loop
open Ramjet.Engine.Worker.Descriptors
open Ramjet.Engine.Worker.Ownership
open Ramjet.Engine.Worker.Moves
open Ramjet.Engine.Worker.Frames
open Ramjet.Engine.Worker.Events
open Ramjet.Engine.Worker.Images
open Ramjet.Engine.Worker.Keeping
open Ramjet.Engine.Worker.Arrivals

/-- A slot that holds no connection of its own. -/
def Bare (slot : Slot) : Prop := (roleOf slot).plain

/-- No slot in use lies above the mark. -/
def Marked (w : World) : Prop := ∀ x, w.slots x ≠ .empty → x.val < w.highWater

/-- Around one descriptor no connection's slot changes, and no connection leaves. -/
structure Around (fd : Fd) (w w' : World) : Prop where
  slots : ∀ x, x ≠ fd → w'.slots x = w.slots x ∨ (Bare (w.slots x) ∧ Bare (w'.slots x))
  archive : w'.archive = w.archive
  drainInflight : w'.drainInflight = w.drainInflight
  marked : Marked w → Marked w'

section Bareness

variable {s : Bool} {w w' : World} {fd up : Fd} {c : Conn}

theorem Bare.not_client {slot : Slot} (h : Bare slot) (c : Conn) : slot ≠ .client c := by
  rintro rfl
  exact h

theorem Bare.uncounted {slot : Slot} (h : Bare slot) : slot.drainCounted = false := by
  cases slot with
  | client | admin => exact h.elim
  | _ => rfl

theorem Bare.leaves {slot : Slot} (h : Bare slot) : slot.leaves = [] := by
  cases slot with
  | client => exact h.elim
  | _ => rfl

theorem Bare.ne (h : Bare (w.slots up)) (hslot : w.slots fd = .client c) : up ≠ fd := by
  rintro rfl
  exact h.not_client c hslot

/-- The upstream of a connection is nobody's own connection. -/
theorem Kept.bare_upstream (h : Kept s w) (hslot : w.slots fd = .client c)
    (hup : c.upstream = some up) : Bare (w.slots up) := by
  obtain ⟨own, ho⟩ := h.owned
  cases hb : c.upBorrowed with
  | false =>
      have hown := ho.attached fd (tiesOf c) up (role_client hslot) hup hb
      exact ho.plain_role (by rw [hown]; nofun) (by rw [hown]; nofun)
  | true =>
      obtain ⟨hclient, hadmin, -, -⟩ := ho.awaiting fd (tiesOf c) up (role_client hslot) hup hb
      exact ho.plain_role hclient hadmin

theorem Kept.bare_held (h : Kept s w) {addr : SocketAddr} (hheld : (addr, up) ∈ w.pool.held) :
    Bare (w.slots up) := by
  obtain ⟨own, ho⟩ := h.owned
  have hown := ho.held (addr, up) hheld
  exact ho.plain_role (by rw [hown]; nofun) (by rw [hown]; nofun)

theorem Kept.bare_free (h : Kept s w) (hfree : w.opened up = false) : Bare (w.slots up) := by
  obtain ⟨own, ho⟩ := h.owned
  have hown := ho.nobody_owner hfree
  exact ho.plain_role (by rw [hown]; nofun) (by rw [hown]; nofun)

end Bareness

section Primitives

variable {fd up : Fd} {w w' : World}

theorem Around.refl (fd : Fd) (w : World) : Around fd w w :=
  ⟨fun _ _ => .inl rfl, rfl, rfl, id⟩

theorem Around.trans {w'' : World} (h : Around fd w w') (h' : Around fd w' w'') :
    Around fd w w'' := by
  refine ⟨fun x hx => ?_, h'.archive.trans h.archive, h'.drainInflight.trans h.drainInflight,
    h'.marked ∘ h.marked⟩
  rcases h.slots x hx with hsame | hbare
  · rw [← hsame]
    exact h'.slots x hx
  · rcases h'.slots x hx with hsame' | hbare'
    · rw [hsame']
      exact .inr hbare
    · exact .inr ⟨hbare.1, hbare'.2⟩

theorem Around.bare (h : Around fd w w') (hne : up ≠ fd) (hbare : Bare (w.slots up)) :
    Bare (w'.slots up) := by
  rcases h.slots up hne with hsame | hbare'
  · rw [hsame]
    exact hbare
  · exact hbare'.2

theorem Around.client (h : Around fd w w') {x : Fd} (hne : x ≠ fd) {d : Conn}
    (hslot : w.slots x = .client d) : w'.slots x = .client d := by
  rcases h.slots x hne with hsame | hbare
  · rw [hsame, hslot]
  · exact absurd hslot (hbare.1.not_client d)

theorem Around.of_same (hslots : w'.slots = w.slots) (harchive : w'.archive = w.archive)
    (hinflight : w'.drainInflight = w.drainInflight) (hmark : w'.highWater = w.highWater) :
    Around fd w w' := by
  refine ⟨fun x _ => .inl (by rw [hslots]), harchive, hinflight, fun hmarked x hx => ?_⟩
  rw [hmark]
  rw [hslots] at hx
  exact hmarked x hx

theorem Around.of_quiet (h : Quiet w w') : Around fd w w' := by
  obtain ⟨_, _, _, _, _, _, rfl, -⟩ := h
  exact .of_same rfl rfl rfl rfl

theorem Around.remember (fd : Fd) (w : World) (m : Moment) : Around fd w (w.remember m) :=
  .of_quiet (.remember w m)

theorem marked_setSlot (h : Marked w) (f : Fd) (slot : Slot) : Marked (w.setSlot f slot) := by
  intro x hx
  show x.val < max w.highWater (f.val + 1)
  by_cases hxf : x = f
  · subst hxf
    exact Nat.lt_of_lt_of_le (Nat.lt_succ_self _) (Nat.le_max_right _ _)
  · rw [setSlot_slots, Function.update_of_ne hxf] at hx
    exact Nat.lt_of_lt_of_le (h x hx) (Nat.le_max_left _ _)

theorem Around.put (fd : Fd) (w : World) (slot : Slot) : Around fd w (w.setSlot fd slot) := by
  refine ⟨fun x hx => .inl ?_, rfl, rfl, fun h => marked_setSlot h fd slot⟩
  rw [setSlot_slots, Function.update_of_ne hx]

theorem Around.putUp (hbare : Bare (w.slots up)) {slot : Slot} (hslot : Bare slot) :
    Around fd w (w.setSlot up slot) := by
  refine ⟨fun x _ => ?_, rfl, rfl, fun h => marked_setSlot h up slot⟩
  rw [setSlot_slots]
  by_cases hx : x = up
  · subst hx
    rw [Function.update_self]
    exact .inr ⟨hbare, hslot⟩
  · rw [Function.update_of_ne hx]
    exact .inl rfl

theorem Around.submit (fd : Fd) (w : World) (k : Kind) (f : Fd) (payload : Bytes) :
    Around fd w (w.submit k f payload) := .of_same rfl rfl rfl rfl

theorem Around.lease (fd : Fd) (w : World) (up : Fd) : Around fd w (lease w up) :=
  .of_same rfl rfl rfl rfl

theorem Around.opening (fd : Fd) (w : World) (f : Fd) : Around fd w (w.opening f) :=
  .of_same rfl rfl rfl rfl

theorem Around.pool (fd : Fd) (w : World) (pool : Pool) : Around fd w { w with pool := pool } :=
  .of_same rfl rfl rfl rfl

theorem Around.lend (fd : Fd) (w : World) (borrowed : List Fd) :
    Around fd w { w with borrowed := borrowed } := .of_same rfl rfl rfl rfl

theorem Around.sysClose (fd : Fd) (w : World) (f : Fd) : Around fd w (w.sysClose f) :=
  .of_same rfl rfl rfl rfl

theorem countOff_bare (hbare : Bare (w.slots up)) : w.countOff up = w := by
  unfold World.countOff
  rw [hbare.uncounted]
  rfl

theorem Around.vacate (hbare : Bare (w.slots up)) : Around fd w (w.vacate up) := by
  have hempty : Bare .empty := trivial
  have hput : Around fd w (w.setSlot up .empty) := .putUp hbare hempty
  refine ⟨hput.slots, ?_, rfl, fun h => marked_setSlot h up .empty⟩
  show w.archive ++ (w.slots up).leaves = w.archive
  rw [hbare.leaves, List.append_nil]

theorem Around.close (ans : Answers) (hbare : Bare (w.slots up)) :
    Around fd w (w.close ans up) := by
  unfold World.close
  rw [countOff_bare hbare]
  dsimp only
  split
  · exact (Around.vacate hbare).trans (.submit fd _ .close up [])
  · exact .vacate hbare

theorem Around.release (fd : Fd) (w : World) (c : Conn) : Around fd w (releaseInflight w c).1 := by
  unfold releaseInflight
  dsimp only
  split
  · split <;> exact .of_same rfl rfl rfl rfl
  · exact .refl fd w

theorem Around.hold (fd : Fd) (w : World) (c : Conn) : Around fd w (holdInflight w c).1 := by
  unfold holdInflight
  split
  · exact .refl fd w
  · split
    · exact .refl fd w
    · exact .of_same rfl rfl rfl rfl

end Primitives

section Functions

variable {env : Outside} {ans : Answers} {s : Bool} {w : World} {fd : Fd} {c : Conn}

theorem Around.letGo (h : Kept s w) (hslot : w.slots fd = .client c) {w' : World}
    (hw : Around fd w w') {c' : Conn} (hup : c'.upstream = c.upstream) :
    Around fd w (letGo ans w' c') := by
  unfold Serving.letGo
  rw [hup]
  split
  · exact hw
  · rename_i up hattached
    have hbare := Kept.bare_upstream h hslot hattached
    have hbare' := hw.bare (hbare.ne hslot) hbare
    split
    · exact hw.trans (.putUp hbare' trivial)
    · exact hw.trans (.close ans hbare')

theorem Around.lose (h : Kept s w) (hslot : w.slots fd = .client c) :
    Around fd w (lose ans w c) := by
  unfold Serving.lose
  split
  · exact .refl fd w
  · rename_i up hattached
    exact .close ans (Kept.bare_upstream h hslot hattached)

theorem Around.fail (h : Kept s w) (hslot : w.slots fd = .client c) (status : Nat) (body : Bytes)
    (close : Bool) (unsupported : Option Bytes) :
    Around fd w (failUnsupported env ans w fd status body close unsupported) := by
  unfold failUnsupported
  simp only [hslot]
  have hreleased : Around fd w (releaseInflight w c).1 := .release fd w c
  have hlet : Around fd w (Serving.letGo ans (releaseInflight w c).1 (releaseInflight w c).2) :=
    .letGo h hslot hreleased (by rw [released_fields])
  exact (hlet.trans (.of_quiet (Quiet.refuse _ _ _ _ _))).trans (.put fd _ _)

theorem Around.releaseUpstream {w' : World} (hw : Around fd w w') {up : Fd} (hne : up ≠ fd)
    (hbare : Bare (w.slots up)) (c : Conn) : Around fd w (releaseUpstream ans w' c up) := by
  have hbare' := hw.bare hne hbare
  unfold Serving.releaseUpstream
  dsimp only
  split
  · rename_i addr _ _
    have hidle : Bare (.idle addr) := trivial
    have hoffered : ∀ pool, Around fd w { w'.setSlot up (.idle addr) with pool := pool } :=
      fun pool => (hw.trans (.putUp hbare' hidle)).trans (.of_same rfl rfl rfl rfl)
    have hclosed : ∀ pool, Around fd w
        (World.close ans { w'.setSlot up (.idle addr) with pool := pool } up) := fun pool =>
      (hoffered pool).trans (.close ans ((hoffered pool).bare hne hbare))
    split
    · have hnoted : ∀ pool m, Around fd w
          ({ w'.setSlot up (.idle addr) with pool := pool }.remember m) :=
        fun pool m => (hoffered pool).trans (.of_quiet (.remember _ _))
      split
      · exact hnoted _ _
      · split
        · exact (hnoted _ _).trans (.submit fd _ .upRead up [])
        · have hremoved : ∀ pool pool' m, Around fd w
              { { w'.setSlot up (.idle addr) with pool := pool }.remember m with pool := pool' } :=
            fun pool pool' m => (hnoted pool m).trans (.of_same rfl rfl rfl rfl)
          exact (hremoved _ _ _).trans (.close ans ((hremoved _ _ _).bare hne hbare))
    · rename_i refused hrefused
      have hsame : refused = up := by
        unfold Pool.put at hrefused
        dsimp only at hrefused
        split at hrefused
        · exact (Option.some.inj hrefused).symm
        · cases hrefused
      rw [hsame]
      exact hclosed _
  · exact hw.trans (.close ans hbare')

theorem Around.finish (h : Kept s w) (hslot : w.slots fd = .client c) :
    Around fd w (finishResponse ans w fd) := by
  unfold finishResponse
  simp only [hslot]
  have hreleased : Around fd w (releaseInflight (w.remember (.finished c)) c).1 :=
    (Around.of_quiet (.remember w _)).trans (.release fd _ c)
  cases hup : c.upstream with
  | none => exact hreleased.trans (.put fd _ _)
  | some up =>
      have hbare := Kept.bare_upstream h hslot hup
      exact (Around.releaseUpstream hreleased (hbare.ne hslot) hbare _).trans (.put fd _ _)

theorem Around.flushDown (fd : Fd) (w : World) : Around fd w (flushDown ans w fd) := by
  unfold Serving.flushDown
  split
  · dsimp only
    split
    · split
      · exact (Around.submit fd w _ _ _).trans (.put fd _ _)
      · exact .put fd w _
    · exact .put fd w _
  · exact .refl fd w

theorem Around.flushUp (fd : Fd) (w : World) : Around fd w (flushUp ans w fd) := by
  unfold Serving.flushUp
  split
  · split
    · exact .refl fd w
    · dsimp only
      split
      · split
        · exact (Around.submit fd w _ _ _).trans (.put fd _ _)
        · exact .put fd w _
      · exact .refl fd w
  · exact .refl fd w

theorem Around.readUp (fd : Fd) (w : World) : Around fd w (readUp ans w fd) := by
  unfold Serving.readUp
  split
  · split
    · exact .refl fd w
    · split
      · exact (Around.submit fd w _ _ _).trans (.put fd _ _)
      · exact .refl fd w
  · exact .refl fd w

theorem Around.readDown (fd : Fd) (w : World) : Around fd w (readDown ans w fd) := by
  unfold Serving.readDown
  split
  · split
    · exact (Around.submit fd w _ _ _).trans (.put fd _ _)
    · exact .refl fd w
  · exact .refl fd w

theorem Around.openUpstream (h : Kept s w) {w' : World} (hw : Around fd w w')
    (hpool : w'.pool = w.pool) {d : Conn}
    (hslot : w.slots fd = .client d) (hslot' : w'.slots fd = .client c) (huntaken : Untaken ans w)
    {addr : SocketAddr} (haddr : c.targets[c.attempt]? = some addr) :
    Around fd w (openUpstream env ans w' fd).1 := by
  unfold Serving.openUpstream
  simp only [hslot', haddr]
  have hheld := hw.trans (.hold fd w'
    { c with dispatchedAt := some w'.clock
             deadline := some (w'.clock + w'.config.responseTimeout) })
  have hstill := Still.hold w'
    { c with dispatchedAt := some w'.clock
             deadline := some (w'.clock + w'.config.responseTimeout) }
  obtain ⟨held, hfields⟩ := holdInflight_fields w'
    { c with dispatchedAt := some w'.clock
             deadline := some (w'.clock + w'.config.responseTimeout) }
  rw [hfields]
  have htaken := hheld.trans (.pool fd _ ((holdInflight w' { c with
    dispatchedAt := some w'.clock
    deadline := some (w'.clock + w'.config.responseTimeout) }).1.pool.take addr).2)
  have hupstream : Bare (.upstream fd) := trivial
  have hempty : Bare .empty := trivial
  split
  · rename_i up hup
    rw [hstill.pool, hpool] at hup
    have hperm : List.Perm w.pool.held ((addr, up) :: (w.pool.take addr).2.held) :=
      held_take (Prod.ext hup rfl)
    have hbare := Kept.bare_held h (hperm.mem_iff.mpr (List.mem_cons_self ..))
    have hleased := htaken.trans (.lease fd _ up)
    exact (hleased.trans (.putUp (hleased.bare (hbare.ne hslot) hbare) hupstream)).trans
      (.put fd _ _)
  · split
    · exact htaken.trans (.put fd _ _)
    · rename_i up connected hconnect
      have hbare := Kept.bare_free h (huntaken up connected hconnect)
      have hleased := (htaken.trans (.opening fd _ up)).trans (.lease fd _ up)
      have hput := hleased.trans (.putUp (hleased.bare (hbare.ne hslot) hbare) hupstream)
      split
      · exact hput.trans (.put fd _ _)
      · split
        · exact (hput.trans (.lend fd _ _)).trans (.put fd _ _)
        · have hdropped := hput.trans (.putUp (hput.bare (hbare.ne hslot) hbare) hempty)
          exact (hdropped.trans (.sysClose fd _ up)).trans (.put fd _ _)

end Functions

section Alterations

variable (env : Outside) (ans : Answers) (calm : Bool)

/-- A connection given what its core found for it: a pooled upstream, a dialled one, or none. -/
def launched (addr : SocketAddr) (w : World) (conn : Conn) : Conn :=
  let conn := (holdInflight w
    { conn with
      dispatchedAt := some w.clock
      deadline := some (w.clock + w.config.responseTimeout) }).2
  match (w.pool.take addr).1 with
  | some up =>
      { conn with
        upstream := some up, upReading := true, upReady := true, fromPool := true
        phase := .exchanging
        book := { conn.book with lease := { turn := w.turns up + 1 } }.attempt
          ⟨conn.endpoint, true, true, [], []⟩ }
  | none =>
      match ans.connect with
      | none => { conn with book := conn.book.attempt ⟨conn.endpoint, false, false, [], []⟩ }
      | some (up, connected) =>
          let conn :=
            { conn with
              upstream := some up, upReading := false, upReady := connected
              fromPool := false
              book := { conn.book with lease := { turn := w.turns up + 1 } }.attempt
                ⟨conn.endpoint, false, connected, [], []⟩ }
          if connected then { conn with phase := .exchanging }
          else if ans.watch then { conn with upBorrowed := true, phase := .connecting }
          else { conn with upstream := none }

/-- One thing that happens to a connection. -/
inductive Alter (fd : Fd) (w : World) : Conn → Conn → Prop
  | progress {w' : World} {c c' : Conn} (h : Progress env ans calm (w, c) (w', c')) :
      Alter fd w c c'
  | refused {c : Conn} (hfailing : Failing w c) (status : Nat) (body : Bytes) (close : Bool)
      (unsupported : Option Bytes) (hown : close = false → c.upBorrowed = false) :
      Alter fd w c (refusedWith env c status body close unsupported)
  | finished {c : Conn} (hseen : c.responseHeadSeen = true) (hdone : c.responseBody.isDone = true)
      (hphase : c.phase ≠ .tunnel) : Alter fd w c (letLoose c).ended
  | flushedDown {c : Conn} : Alter fd w c (flushedDown ans fd c)
  | flushedUp {c : Conn} : Alter fd w c (flushedUp ans c)
  | watchedUp {c : Conn} : Alter fd w c (watchedUp ans c)
  | watchedDown {c : Conn} (hgiven : c.handOff = false) : Alter fd w c (watchedDown ans fd c)
  | dispatched {c : Conn} {matched : Matched} {framing : Framing} {first allowed : Nat}
      {target : SocketAddr} {others : List SocketAddr} (hphase : c.phase = .head) (hread : Read c)
      (hbody : c.requestBody = Body.new framing)
      (hallowed : allowed = attempts framing matched.backend.endpoints.length
        w.config.maxConnectAttempts)
      (htargets : targetsOf matched.backend first allowed = target :: others) :
      Alter fd w c
        (dispatched ans w c w.routes matched framing first (target :: others) target).2
  | launched {c : Conn} {addr : SocketAddr} (haimed : Aimed c)
      (haddr : c.targets[c.attempt]? = some addr) : Alter fd w c (launched ans addr w c)
  | released {c : Conn} (hdue : Due c) : Alter fd w c (letLoose c)
  | requeued {c : Conn} (hdue : Due c) (hheld : c.inflightHeld = false)
      (hleft : c.pooledRace = true ∨
        (c.committed = false ∧ c.attempt + 1 < c.targets.length)) : Alter fd w c c.requeued
  | lost {c : Conn} (hown : c.upBorrowed = false) (hphase : c.phase ≠ .head) (garbled : Bool)
      (hcause : garbled = false → .failed c ∈ w.moments)
      (hgarbled : garbled = true → c.phase = .exchanging ∧ c.responseHeadSeen = false) :
      Alter fd w c { c with upstream := none, committed := garbled || c.committed }

/-- What a move of its exchange makes of a connection, one thing after another. -/
def Alters (fd : Fd) (w : World) : Conn → Conn → Prop :=
  Relation.ReflTransGen fun c c' => ∃ w', Frame fd w w' ∧ Alter env ans calm fd w' c c'

/-- How a connection leaves its core, and as what: with nothing left to write, given to the other
engine, or idle. -/
inductive Departs (fd : Fd) (w : World) : Conn → Conn → Prop
  | settled {c c₀ : Conn} (hphase : c.phase = .closing) (hwriting : c.writing = false)
      (hpending : c.hasPendingOut = false)
      (hdriven : c = watchedDown ans fd
        (watchedUp ans (flushedUp ans (flushedDown ans fd c₀)))) : Departs fd w c c.cutOff
  | handed {c : Conn} (hgiven : c.handOff = true) : Departs fd w c c
  | preface {c : Conn} (hphase : c.phase = .head) (hpreface : isH2Preface c.inbox = true) :
      Departs fd w c { c with handOff := true }
  | idled {c : Conn} (hphase : c.phase = .head) : Departs fd w c c

/-- A connection leaves its descriptor: into the archive, and off the drain's count where it is
closed. -/
structure Vacated (fd : Fd) (w w' : World) (d : Conn) : Prop where
  empty : w'.slots fd = .empty
  slots : ∀ x, x ≠ fd → w'.slots x = w.slots x ∨ (Bare (w.slots x) ∧ Bare (w'.slots x))
  archive : w'.archive = w.archive ++ [d]
  count : w'.drainInflight = w.drainInflight - d.drainCounted.toNat ∨
    (d.handOff = true ∧ w'.drainInflight = w.drainInflight)
  marked : Marked w → Marked w'

/-- What a move of an exchange makes of its core: its connection altered, or gone. -/
inductive Turned (fd : Fd) (w w' : World) : Prop
  | altered {c c' : Conn} (hslot : w.slots fd = .client c) (hslot' : w'.slots fd = .client c')
      (halters : Alters env ans calm fd w c c') (haround : Around fd w w')
  | departed {c d : Conn} (hslot : w.slots fd = .client c) (hdeparts : Departs ans fd w c d)
      (hvacated : Vacated fd w w' d)
  | untouched (hslots : w'.slots fd = w.slots fd) (haround : Around fd w w')

end Alterations

section Turning

variable {env : Outside} {ans : Answers} {calm : Bool} {s : Bool} {w w' : World} {fd : Fd}
  {c c' d : Conn}

theorem launched_slot {addr : SocketAddr} (hslot : w.slots fd = .client c)
    (haddr : c.targets[c.attempt]? = some addr) :
    (openUpstream env ans w fd).1.slots fd = .client (launched ans addr w c) := by
  have hstill := Still.hold w
    { c with dispatchedAt := some w.clock
             deadline := some (w.clock + w.config.responseTimeout) }
  have hturns : (holdInflight w
      { c with dispatchedAt := some w.clock
               deadline := some (w.clock + w.config.responseTimeout) }).1.turns = w.turns := by
    unfold holdInflight
    split
    · rfl
    · split <;> rfl
  unfold openUpstream launched
  simp only [hslot, haddr, hstill.pool]
  cases htaken : (w.pool.take addr).1 with
  | some up =>
      dsimp only
      rw [setClient_slot]
      simp only [lease, Function.update_self, hturns]
  | none =>
      dsimp only
      cases hconnect : ans.connect with
      | none => exact setClient_slot ..
      | some dialled =>
          obtain ⟨up, connected⟩ := dialled
          dsimp only
          cases connected with
          | true =>
              simp only [if_true]
              rw [setClient_slot]
              simp only [lease, World.opening, Function.update_self, hturns]
          | false =>
              cases ans.watch with
              | true =>
                  simp only [Bool.false_eq_true, if_false, if_true]
                  rw [setClient_slot]
                  simp only [lease, World.opening, Function.update_self, hturns]
              | false =>
                  simp only [Bool.false_eq_true, if_false]
                  rw [setClient_slot]
                  simp only [lease, World.opening, Function.update_self, hturns]

theorem Around.vacated (h : Around fd w w') {w'' : World} (hleft : Vacated fd w' w'' d) :
    Vacated fd w w'' d := by
  have htogether : ∀ x, x ≠ fd →
      w''.slots x = w.slots x ∨ (Bare (w.slots x) ∧ Bare (w''.slots x)) := by
    intro x hx
    rcases h.slots x hx with hsame | hbare
    · rw [← hsame]
      exact hleft.slots x hx
    · rcases hleft.slots x hx with hsame' | hbare'
      · rw [hsame']
        exact .inr hbare
      · exact .inr ⟨hbare.1, hbare'.2⟩
  refine ⟨hleft.empty, htogether, ?_, ?_, hleft.marked ∘ h.marked⟩
  · rw [hleft.archive, h.archive]
  · rw [← h.drainInflight]
    exact hleft.count

theorem vacated_vacate (hslot : w.slots fd = .client d) (hgiven : d.handOff = true) :
    Vacated fd w (w.vacate fd) d := by
  refine ⟨Function.update_self .., fun x hx => .inl ?_, ?_, .inr ⟨hgiven, rfl⟩,
    fun h => marked_setSlot h fd .empty⟩
  · rw [vacate_slots, Function.update_of_ne hx]
  · show w.archive ++ (w.slots fd).leaves = _
    rw [hslot]
    rfl

theorem vacated_handOff (hslot : w.slots fd = .client d) (hgiven : d.handOff = true)
    (hdispatch : w.config.dispatch = true) : Vacated fd w (Serving.handOff w fd).1 d := by
  unfold Serving.handOff
  simp only [hslot, hdispatch]
  exact (Around.remember fd w _).vacated
    (vacated_vacate (w := w.remember _) hslot hgiven)

theorem vacated_close (hslot : w.slots fd = .client d) (ans : Answers) :
    Vacated fd w (w.close ans fd) d := by
  have hcounted : (w.slots fd).drainCounted = d.drainCounted := by rw [hslot]; rfl
  have hleft : ((w.countOff fd).vacate fd).archive = w.archive ++ [d] := by
    show (w.countOff fd).archive ++ ((w.countOff fd).slots fd).leaves = _
    unfold World.countOff
    split
    · show w.archive ++ (w.slots fd).leaves = _
      rw [hslot]
      rfl
    · rw [hslot]
      rfl
  have hcount : ((w.countOff fd).vacate fd).drainInflight =
      w.drainInflight - d.drainCounted.toNat := by
    show (w.countOff fd).drainInflight = _
    unfold World.countOff
    rw [hcounted]
    cases d.drainCounted <;> rfl
  have hmark : Marked w → Marked ((w.countOff fd).vacate fd) := by
    intro h
    have hsame : Marked (w.countOff fd) := by
      unfold World.countOff
      split
      · exact h
      · exact h
    exact marked_setSlot hsame fd .empty
  refine ⟨?_, fun x hx => .inl ?_, ?_, .inl ?_, ?_⟩
  · rw [close_slots, Function.update_self]
  · rw [close_slots, Function.update_of_ne hx]
  · unfold World.close
    dsimp only
    split <;> exact hleft
  · unfold World.close
    dsimp only
    split <;> exact hcount
  · unfold World.close
    dsimp only
    split <;> exact hmark

theorem Alters.single (h : Alter env ans calm fd w c c') : Alters env ans calm fd w c c' :=
  Relation.ReflTransGen.single ⟨w, .refl fd w, h⟩

theorem Alters.next (h : Alters env ans calm fd w c c') (hframe : Frame fd w w')
    (hnext : Alter env ans calm fd w' c' d) : Alters env ans calm fd w c d :=
  .tail h ⟨w', hframe, hnext⟩

theorem hands_alters {p q : Hand} (h : Hands env ans calm p q) :
    Alters env ans calm fd p.1 p.2 q.2 := by
  induction h with
  | refl => exact .refl
  | tail hbefore hstep ih =>
      exact ih.next (.of_quiet (hands_quiet hbefore)) (.progress hstep)

theorem Turned.of_alter (hslot : w.slots fd = .client c) (hslot' : w'.slots fd = .client c')
    (halter : Alter env ans calm fd w c c') (haround : Around fd w w') :
    Turned env ans calm fd w w' :=
  .altered hslot hslot' (.single halter) haround

theorem refusedFailure (hslot : w.slots fd = .client c) (hfailing : Failing w c) (h : Kept s w)
    (status : Nat) (body : Bytes) (close : Bool) (unsupported : Option Bytes)
    (hown : close = false → c.upBorrowed = false) :
    Turned env ans calm fd w (failUnsupported env ans w fd status body close unsupported) :=
  .of_alter hslot (fail_slot hslot ..) (.refused hfailing status body close unsupported hown)
    (.fail h hslot ..)

theorem settled_turned (h : Kept s w)
    (hdriven : ∀ c, w.slots fd = .client c → ∃ c₀,
      c = watchedDown ans fd (watchedUp ans (flushedUp ans (flushedDown ans fd c₀)))) :
    Turned env ans calm fd w (settle ans w fd) := by
  unfold settle
  split
  · rename_i c hslot
    split
    · rename_i hdone
      simp only [Bool.and_eq_true, Bool.not_eq_true', beq_iff_eq] at hdone
      obtain ⟨c₀, hc₀⟩ := hdriven c hslot
      have hlet : Around fd w ((letGo ans w c).setClient fd c.cutOff) :=
        (Around.letGo h hslot (.refl fd w) rfl).trans (.put fd _ _)
      exact .departed hslot (.settled hdone.1.1 hdone.1.2 hdone.2 hc₀)
        (hlet.vacated (vacated_close (setClient_slot ..) ans))
    · exact .untouched rfl (.refl fd w)
  · exact .untouched rfl (.refl fd w)

theorem flushed_turned (w : World) (fd : Fd) {f : World → Fd → World} {g : Conn → Conn}
    (hslot : ∀ c, w.slots fd = .client c → (f w fd).slots fd = .client (g c))
    (halter : ∀ c, w.slots fd = .client c → Alter env ans calm fd w c (g c))
    (haround : Around fd w (f w fd))
    (hnone : (∀ c, w.slots fd ≠ .client c) → f w fd = w) : Turned env ans calm fd w (f w fd) := by
  by_cases hclient : ∃ c, w.slots fd = .client c
  · obtain ⟨c, hc⟩ := hclient
    exact .of_alter hc (hslot c hc) (halter c hc) haround
  · have hsame := hnone fun c hc => hclient ⟨c, hc⟩
    exact .untouched (congrFun (congrArg World.slots hsame) fd) haround

/-- Every move alters the connection it is about, or sees it off. -/
theorem move_turned (h : Kept s w) (hmove : Move env ans calm fd w w') :
    Turned env ans calm fd w w' := by
  cases hmove with
  | @put w' c c' hslot hands =>
      exact .altered hslot (setClient_slot ..) (hands_alters hands)
        ((Around.of_quiet (hands_quiet hands)).trans (.put fd _ _))
  | fail hslot hfailing status body close unsupported hown =>
      exact refusedFailure hslot hfailing h status body close unsupported hown
  | rejected | failed => exact .untouched rfl (.remember fd w _)
  | finish hslot hseen hdone hphase =>
      exact .of_alter hslot (finish_slot hslot) (.finished hseen hdone hphase) (.finish h hslot)
  | @handOff c hslot hgiven hdispatch =>
      exact .departed hslot (.handed hgiven) (vacated_handOff hslot hgiven hdispatch)
  | @preface c hslot hphase hpreface hdispatch =>
      have hput : Around fd w (w.setClient fd { c with handOff := true }) := .put fd w _
      exact .departed hslot (.preface hphase hpreface)
        (hput.vacated (vacated_handOff (setClient_slot ..) rfl hdispatch))
  | flushDown =>
      refine flushed_turned w fd (fun _ => flushDown_slot) (fun _ _ => .flushedDown)
        (.flushDown fd w) fun hnone => ?_
      unfold Serving.flushDown
      split
      · exact absurd ‹_› (hnone _)
      · rfl
  | flushUp =>
      refine flushed_turned w fd (fun _ => flushUp_slot) (fun _ _ => .flushedUp)
        (.flushUp fd w) fun hnone => ?_
      unfold Serving.flushUp
      split
      · exact absurd ‹_› (hnone _)
      · rfl
  | readUp =>
      refine flushed_turned w fd (fun _ => readUp_slot) (fun _ _ => .watchedUp)
        (.readUp fd w) fun hnone => ?_
      unfold Serving.readUp
      split
      · exact absurd ‹_› (hnone _)
      · rfl
  | readDown hgiven =>
      refine flushed_turned w fd (fun _ => readDown_slot)
        (fun c hc => .watchedDown (hgiven c hc)) (.readDown fd w) fun hnone => ?_
      unfold Serving.readDown
      split
      · exact absurd ‹_› (hnone _)
      · rfl
  | settle hdriven => exact settled_turned h hdriven
  | @dispatched w₁ c c₁ matched framing first allowed target others hslot hands hphase hread hbody
      hallowed htargets huntaken =>
      obtain ⟨mirror, requestHead, book, hfields⟩ := dispatched_fields ans w₁ c₁ w₁.routes matched
        framing first (target :: others) target
      have hquiet := hands_quiet hands
      have hquiet' := Quiet.dispatched ans w₁ c₁ w₁.routes matched framing first (target :: others)
        target
      have haround : Around fd w w₁ := .of_quiet hquiet
      have hput := (haround.trans (.of_quiet hquiet')).trans
        (.put fd _ (.client (dispatched ans w₁ c₁ w₁.routes matched framing first
          (target :: others) target).2))
      have halters : Alters env ans calm fd w c c₁ := hands_alters hands
      have hnoted := halters.next (.of_quiet hquiet)
        (.dispatched hphase hread hbody hallowed htargets)
      have hsteady := hands_steady hands (h.steady fd c hslot)
      have hfresh := Turns.Fresh.of_shape hsteady.shape hphase
      obtain ⟨haimed, haddr⟩ := Turns.dispatched_aimed ans w₁ hfresh w₁.routes matched framing first
        target others
      have hframed : Frame fd w w₁ := .of_quiet hquiet
      have hframe := (hframed.trans (.of_quiet hquiet')).trans
        (.put fd _ (.client (dispatched ans w₁ c₁ w₁.routes matched framing first
          (target :: others) target).2))
      refine .altered hslot (launched_slot (setClient_slot ..) haddr)
        (hnoted.next hframe (.launched haimed haddr)) ?_
      refine Around.openUpstream h hput ?_ hslot (setClient_slot ..) ?_ haddr
      · have hpool := (Still.of_quiet (hquiet.trans hquiet')).pool
        exact hpool
      · intro up connected hup
        rw [← hquiet.opened]
        exact huntaken up connected hup
  | @released c hslot hdue =>
      have hslot' : ((releaseInflight w c).1.setClient fd (releaseInflight w c).2).slots fd =
          .client (letLoose c) := by
        rw [setClient_slot, released_fields]
        rfl
      exact .of_alter hslot hslot' (.released hdue) ((Around.release fd w c).trans (.put fd _ _))
  | @requeued c addr hslot hdue hheld hleft haddr huntaken =>
      have hput : Around fd w (w.setClient fd c.requeued) := .put fd w _
      have hframe : Frame fd w (w.setClient fd c.requeued) := .put fd w _
      have hrequeued : Alters env ans calm fd w c c.requeued :=
        .single (.requeued hdue hheld hleft)
      exact .altered hslot (launched_slot (setClient_slot ..) haddr)
        (hrequeued.next hframe (.launched (requeued_aimed hdue) haddr))
        (Around.openUpstream h hput rfl hslot (setClient_slot ..) huntaken haddr)
  | lost hslot hown hphase garbled hcause hgarbled =>
      exact .of_alter hslot (setClient_slot ..) (.lost hown hphase garbled hcause hgarbled)
        ((Around.lose h hslot).trans (.put fd _ _))
  | idled hslot hphase => exact .departed hslot (.idled hphase) (vacated_close hslot ans)
  | gone hslot =>
      refine .untouched ?_ (.put fd w _)
      rw [setSlot_slots, Function.update_self, hslot]

end Turning

end Ramjet.Engine.Worker.Alterations
