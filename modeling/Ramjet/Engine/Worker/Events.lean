/- digest: Everything that can happen to a core, one effect at a time. -/

import Ramjet.Engine.Worker.Moves

set_option autoImplicit false
set_option relaxedAutoImplicit false

namespace Ramjet.Engine.Worker.Events

open Ramjet.Base.Octets
open Ramjet.Base.Net
open Ramjet.Base.AssocMap
open Ramjet.Engine.IdlePool
open Ramjet.Engine.Worker.Connection
open Ramjet.Engine.Worker.Core
open Ramjet.Engine.Worker.Handlers
open Ramjet.Engine.Worker.Loop
open Ramjet.Engine.Worker.Descriptors
open Ramjet.Engine.Worker.Moves

variable (env : Outside) (calm : Bool)

/-- An operation in flight that nothing has overtaken. -/
structure Live (w : World) (op : Op) (k : Kind) : Prop where
  mem : op ∈ w.ops
  kind : op.kind = k
  now : op.bumps = w.bumps op.fd

/-- Nobody's connection is behind an upstream slot. -/
def Orphan (w : World) (up : Fd) : Prop :=
  ∀ down, w.slots up = .upstream down → ∀ c, w.slots down ≠ .client c

/-- What happens beside every client connection. -/
inductive Aside : World → World → Prop
  | dropped {w : World} {op : Op} (outcome : Outcome) (hop : op ∈ w.ops)
      (hlate : op.kind = .close ∨ op.bumps ≠ w.bumps op.fd) : Aside w (w.retire op outcome)
  | turnedAway {w : World} {fd : Fd} (hfree : w.opened fd = false) :
      Aside w ((w.opening fd).sysClose fd)
  | lapsed {w : World} {op : Op} {addr : SocketAddr} (ans : Answers) (outcome : Outcome)
      (hop : Live w op .upRead) (hslot : w.slots op.fd = .idle addr) :
      Aside w ({ w.retire op outcome with
        pool := ((w.retire op outcome).pool.remove addr op.fd).2 }.close ans op.fd)
  | unheard {w : World} {op : Op} {k : Kind} (outcome : Outcome) (hop : Live w op k)
      (hk : k = .upRead ∨ k = .upWrite) (horphan : Orphan w op.fd)
      (hidle : k = .upRead → ∀ addr, w.slots op.fd ≠ .idle addr) : Aside w (w.retire op outcome)
  | cleared {w : World} {up down : Fd} (hup : w.slots up = .upstream down)
      (hdown : ∀ c, w.slots down ≠ .client c) : Aside w (w.setSlot down .empty)
  | forsaken {w : World} {up : Fd} (hup : up ∈ w.borrowed) (horphan : Orphan w up)
      (hslot : ∀ c, w.slots up ≠ .client c) :
      Aside w (({ w with borrowed := w.borrowed.erase up }.setSlot up .empty).sysClose up)
  | flushed {w : World} {pool : Pool} {gone : List (SocketAddr × Fd)} (ans : Answers)
      (hheld : List.Perm w.pool.held (gone ++ pool.held))
      (hslots : ∀ e ∈ gone, ∀ c, w.slots e.2 ≠ .client c) :
      Aside w (World.closeAll ans { w with pool := pool } (gone.map (·.2)))
  | heard {w : World} {op : Op} {k : Kind} (outcome : Outcome) (hop : Live w op k)
      (hk : k = .notify ∨ Kind.ofListener k) : Aside w (w.retire op outcome)
  | armed {w : World} {k : Kind} {fd : Fd}
      (hfd : (k = .notify ∧ fd = w.notify) ∨
        (Kind.ofListener k ∧ fd ∈ w.intakes.map (·.fd) ++ w.admin.toList)) :
      Aside w (w.submit k fd [])
  | broke {w : World} : Aside w { w with broken := true }
  | stopped {w : World} : Aside w { w with shutdown := true }
  | expired {w : World} : Aside w { w with drainExpired := true }
  | partly {w : World} (intakePartial : Map Fd Bytes) :
      Aside w { w with intakePartial := intakePartial }
  | unlistened {w : World} (ans : Answers) (deadline : Nat)
      (hserving : w.drainDeadline = none)
      (hslots : ∀ f ∈ w.intakes.map (·.fd) ++ w.admin.toList, ∀ c, w.slots f ≠ .client c) :
      Aside w (World.closeAll ans
        { w with drainDeadline := some deadline, intakes := [], intakePartial := [], admin := none }
        (w.intakes.map (·.fd) ++ w.admin.toList))
  | sent {w : World} {up : Fd} (bytes : Bytes) (hopen : w.opened up = true) :
      Aside w (World.sent w up bytes)
  | adminBegun {w : World} {fd : Fd} (hfree : w.opened fd = false)
      (hserving : w.drainDeadline = none) (hslot : ∀ c, w.slots fd ≠ .client c) :
      Aside w (((w.opening fd).bumpGeneration fd).setSlot fd (.admin {}))
  | adminDropped {w : World} {fd : Fd} {a : AdminConn} (hslot : w.slots fd = .admin a) :
      Aside w (w.setSlot fd (.admin { a with outbox := [] }))
  | adminRead {w : World} {fd : Fd} {a : AdminConn} (hslot : w.slots fd = .admin a)
      (hquiet : a.reading = false) (hidle : a.writing = false ∧ a.outbox = [])
      (hcounted : a.drainCounted = false) :
      Aside w ((w.submit .adminRead fd []).setSlot fd (.admin { a with reading := true }))
  | adminWritten {w : World} {fd : Fd} {a : AdminConn} (hslot : w.slots fd = .admin a)
      (hquiet : a.writing = false) (hqueued : a.outbox ≠ []) :
      Aside w ((w.submit .adminWrite fd a.outbox).setSlot fd
        (.admin { a with outbox := [], writing := true }))
  | adminHeard {w : World} {op : Op} {a a' : AdminConn} (outcome : Outcome)
      (hop : Live w op .adminRead) (hslot : w.slots op.fd = .admin a)
      (hflags : a'.reading = false ∧ a'.writing = a.writing)
      (hcounted : a'.drainCounted = a.drainCounted) :
      Aside w ((w.retire op outcome).setSlot op.fd (.admin a'))
  | adminWrote {w : World} {op : Op} {a : AdminConn} (outcome : Outcome)
      (hop : Live w op .adminWrite) (hslot : w.slots op.fd = .admin a) :
      Aside w ((w.retire op outcome).setSlot op.fd (.admin { a with writing := false }))
  | adminLeft {w : World} {op : Op} {a : AdminConn} {k : Kind} (ans : Answers) (outcome : Outcome)
      (hop : Live w op k) (hk : k = .adminRead ∨ k = .adminWrite)
      (hslot : w.slots op.fd = .admin a) : Aside w ((w.retire op outcome).close ans op.fd)
  | adminHungUp {w : World} {op : Op} {a : AdminConn} (ans : Answers) (outcome : Outcome)
      (hop : Live w op .adminRead) (hslot : w.slots op.fd = .admin a) :
      Aside w (((w.retire op outcome).setSlot op.fd .empty).close ans op.fd)
  | adminClosed {w : World} {fd : Fd} {a : AdminConn} (ans : Answers)
      (hslot : w.slots fd = .admin a) : Aside w (w.close ans fd)
  | adminSpared {w : World} {fd : Fd} {a : AdminConn} (hslot : w.slots fd = .admin a)
      (hdraining : w.drainDeadline.isSome = true) (hbusy : a.writing = true ∨ a.outbox ≠ [])
      (hfresh : a.drainCounted = false) :
      Aside w ({ w with drainInflight := w.drainInflight + 1 }.setSlot fd
        (.admin { a with drainCounted := true }))

/-- What happens to a core; only in one whose slots may say less than their owners is a tunnel
cut off. -/
inductive Event (strict : Bool) : World → World → Prop
  | moved {w w' : World} {ans : Answers} {fd : Fd} (h : Move env ans calm fd w w') :
      Event strict w w'
  | readDown {w : World} {op : Op} {c : Conn} (ans : Answers) (outcome : Outcome)
      (hop : Live w op .downRead) (hslot : w.slots op.fd = .client c) (hreading : c.reading = true)
      (hgiven : c.handOff = false) (hfits : Outcome.fits w op outcome = true) :
      Event strict w ((w.retire op outcome).setClient op.fd
        (readClient env ans (w.retire op outcome) { c with reading := false } outcome))
  | wroteDown {w : World} {op : Op} {c : Conn} (outcome : Outcome)
      (hop : Live w op .downWrite) (hslot : w.slots op.fd = .client c)
      (hwriting : c.writing = true) :
      Event strict w ((w.retire op outcome).setClient op.fd (wroteClient c outcome))
  | readUp {w : World} {op : Op} {down : Fd} {c : Conn} (outcome : Outcome)
      (hop : Live w op .upRead) (hup : w.slots op.fd = .upstream down)
      (hslot : w.slots down = .client c) (hattached : c.upstream = some op.fd)
      (hown : c.upBorrowed = false) (hreading : c.upReading = true)
      (hfits : Outcome.fits w op outcome = true) :
      Event strict w ((w.retire op outcome).setClient down
        (hear c outcome.bytes (stampsOf w op outcome)))
  | wroteUp {w : World} {op : Op} {down : Fd} {c : Conn} (outcome : Outcome)
      (hop : Live w op .upWrite) (hup : w.slots op.fd = .upstream down)
      (hslot : w.slots down = .client c) (hattached : c.upstream = some op.fd)
      (hown : c.upBorrowed = false) (hwriting : c.upWriting = true) :
      Event strict w ((w.retire op outcome).setClient down
        (if outcome = .wrote then delivered c op.payload else { c with upWriting := false }))
  | connected {w : World} {up down : Fd} {c : Conn} (hmem : up ∈ w.borrowed)
      (hup : w.slots up = .upstream down) (hslot : w.slots down = .client c)
      (hattached : c.upstream = some up) (hlent : c.upBorrowed = true) :
      Event strict w ({ w with borrowed := w.borrowed.erase up }.setClient down (connected c))
  | missed {w : World} {up down : Fd} {c : Conn} (hmem : up ∈ w.borrowed)
      (hup : w.slots up = .upstream down) (hslot : w.slots down = .client c)
      (hattached : c.upstream = some up) (hlent : c.upBorrowed = true) :
      Event strict w ((({ w with borrowed := w.borrowed.erase up }.setSlot up .empty).sysClose
        up).setClient down { c with upBorrowed := false, upstream := none })
  | started {w : World} {fd : Fd} (ans : Answers) (tls : Bool) (hfree : w.opened fd = false)
      (hserving : w.drainDeadline = none) (hslot : ∀ c, w.slots fd ≠ .client c) :
      Event strict w (((w.opening fd).bumpGeneration fd).setClient fd (newClient ans w tls))
  | spared {w : World} {fd : Fd} {c : Conn} (hslot : w.slots fd = .client c)
      (hdraining : w.drainDeadline.isSome = true) (hphase : c.phase ≠ .tunnel)
      (hserving : c.phase = .connecting ∨ c.phase = .exchanging ∨ c.phase = .relaying ∨
        c.writing = true ∨ c.hasPendingOut = true) (hfresh : c.drainCounted = false) :
      Event strict w ({ w with drainInflight := w.drainInflight + 1 }.setClient fd (spared c))
  | cut {w : World} {fd : Fd} {c : Conn} (ans : Answers) (hweak : strict = false)
      (hslot : w.slots fd = .client c) (hdraining : w.drainDeadline.isSome = true)
      (hphase : c.phase = .tunnel) (hfresh : c.drainCounted = false) :
      Event strict w (w.close ans fd)
  | published {w : World} (routes : Snapshot) : Event strict w { w with routes := routes }
  | elapsed {w : World} (time : Nat) : Event strict w { w with clock := w.clock + time }
  | aside {w w' : World} (h : Aside w w') : Event strict w w'

abbrev Happens (strict : Bool) := Relation.ReflTransGen (Event env calm strict)

end Ramjet.Engine.Worker.Events
