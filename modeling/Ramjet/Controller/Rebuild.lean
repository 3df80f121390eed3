/- digest: The rebuild loop: a publish for every changed digest, and what is written back. -/

import Ramjet.Base.Machine
import Ramjet.Controller.OwnWrites

set_option autoImplicit false
set_option relaxedAutoImplicit false

namespace Ramjet.Controller.Rebuild

open Ramjet.Base.Octets
open Ramjet.Base.Text
open Ramjet.Base.Net
open Ramjet.Base.AssocMap
open Ramjet.Base.Machine
open Ramjet.Base.Outcome
open Ramjet.Router.Rule
open Ramjet.Router.Table
open Ramjet.Router.Builder
open Ramjet.Controller.Objects
open Ramjet.Controller.Annotations
open Ramjet.Controller.Config
open Ramjet.Controller.Translate
open Ramjet.Controller.Feed
open Ramjet.Controller.OwnWrites

section Status

/-- The address published into the status of an Ingress. -/
inductive Address where
  | ip (text : Bytes)
  | hostname (text : Bytes)
  deriving DecidableEq, Repr

/-- An IP if it parses as one, else a hostname. -/
def Address.parse (raw : Bytes) : Option Address :=
  let raw := trim raw
  if raw.isEmpty then none
  else if (parseIpAddr raw).isSome then some (.ip raw)
  else some (.hostname raw)

/-- The options the status writer reads. -/
structure StatusOpts where
  updateStatus : Bool := true
  publishService : Option Bytes := none
  publishAddress : Option Bytes := none
  deriving DecidableEq, Repr

/-- A write to one Ingress: its address, set or cleared, or the generation it was compiled in. -/
inductive Write where
  | address (key : ObjectKey) (entry : Option Address)
  | observed (key : ObjectKey) (generation : Nat)
  deriving DecidableEq, Repr

structure StatusWriter where
  configured : Option Address
  publishService : Option (Bytes × Bytes)
  applied : Map ObjectKey Address := []
  annotated : Map ObjectKey Nat := []
  deriving DecidableEq, Repr

def StatusWriter.new (opts : StatusOpts) : Option StatusWriter :=
  if opts.updateStatus then
    some {
      configured := opts.publishAddress.bind Address.parse
      publishService := (opts.publishService.bind (splitOnce (47 : UInt8))).filter fun p =>
        !p.1.isEmpty && !p.2.isEmpty }
  else none

/-- The load balancer entries of a Service, absent where it could not be read. -/
abbrev ServiceAnswer := Option (List (Option Bytes × Option Bytes))

def entryAddress : Option Bytes × Option Bytes → Option Address
  | (some ip, _) => some (.ip ip)
  | (none, some hostname) => some (.hostname hostname)
  | (none, none) => none

/-- The address to publish, preferring a Service's own status. -/
def StatusWriter.address (s : StatusWriter) (answer : ServiceAnswer) : Option Address :=
  match s.publishService, answer with
  | none, _ => s.configured
  | some _, none => s.configured
  | some _, some entries => (entries.head?.bind entryAddress).or s.configured

/-- Forgets what has been written, so the next pass rewrites everything. -/
def StatusWriter.invalidate (s : StatusWriter) : StatusWriter :=
  { s with applied := [], annotated := [] }

/-- Whether an Ingress needs its generation written. -/
def needsAnnotation (key : ObjectKey) (generation : Nat)
    (observed annotated : Map ObjectKey Nat) : Bool :=
  get observed key != some generation && get annotated key != some generation

/-- The writer in the middle of a pass, with every write sent so far. -/
structure Syncing where
  writer : StatusWriter
  sent : List Write
  deriving DecidableEq, Repr

-- Which of the writes, counted from the first, the API server accepted.
variable (stuck : Nat → Bool)

def Syncing.send (s : Syncing) (write : Write) (done : StatusWriter → StatusWriter) : Syncing :=
  ⟨if stuck s.sent.length then done s.writer else s.writer, s.sent ++ [write]⟩

def clearStale (s : Syncing) (key : ObjectKey) : Syncing :=
  s.send stuck (.address key none) fun w =>
    { w with applied := retain w.applied fun k => decide (k ≠ key) }

def syncAddress (address : Option Address) (s : Syncing) (key : ObjectKey) : Syncing :=
  match address with
  | none => s
  | some address =>
      if get s.writer.applied key = some address then s
      else s.send stuck (.address key (some address)) fun w =>
        { w with applied := insert w.applied key address }

def syncObserved (generation : Nat) (observed : Map ObjectKey Nat) (s : Syncing)
    (key : ObjectKey) : Syncing :=
  if needsAnnotation key generation observed s.writer.annotated then
    s.send stuck (.observed key generation) fun w =>
      { w with annotated := insert w.annotated key generation }
  else s

/-- Clears the Ingresses no longer managed, then writes what the managed ones lack. -/
def sync (managed : List ObjectKey) (generation : Nat) (observed : Map ObjectKey Nat)
    (answer : ServiceAnswer) (s : Syncing) : Syncing :=
  let address := s.writer.address answer
  let stale := (s.writer.applied.map (·.1)).filter fun key => key ∉ managed
  let s := stale.foldl (clearStale stuck) s
  let s : Syncing :=
    ⟨{ s.writer with annotated := retain s.writer.annotated fun key => decide (key ∈ managed) },
      s.sent⟩
  managed.foldl (fun s key =>
    syncObserved stuck generation observed (syncAddress stuck address s key) key) s

end Status

section Mirrors

/-- An Ingress as it is stored: what the translator sees of it, and the addresses in its status. -/
structure StoredIngress where
  object : Ingress
  addresses : List Address := []
  deriving DecidableEq, Repr

/-- The five mirrors the translator reads. -/
structure Stores where
  ingresses : List StoredIngress := []
  classes : List IngressClass := []
  services : List Service := []
  slices : List EndpointSlice := []
  secrets : List Secret := []
  deriving DecidableEq, Repr

def Stores.snapshot (s : Stores) : ClusterSnapshot where
  ingresses := s.ingresses.map (·.object)
  ingressClasses := s.classes
  services := s.services
  endpointSlices := s.slices
  secrets := s.secrets

/-- What an Ingress claims to have been compiled in. -/
def observedGeneration (ingress : Ingress) : Option (ObjectKey × Nat) := do
  let value ← get ingress.metadata.annotations ANNOTATION_OBSERVED_GENERATION
  let generation ← parseUnsigned U64_LIMIT (trim value)
  return (.of ingress.metadata, generation)

def observedGenerations (snapshot : ClusterSnapshot) : Map ObjectKey Nat :=
  (snapshot.ingresses.filterMap observedGeneration).foldl (fun m e => insert m e.1 e.2) []

/-- What a write does to an Ingress it names. -/
def Write.on (write : Write) (ingress : StoredIngress) : StoredIngress :=
  match write with
  | .address key entry =>
      if ObjectKey.of ingress.object.metadata = key then
        { ingress with addresses := entry.toList }
      else ingress
  | .observed key generation =>
      if ObjectKey.of ingress.object.metadata = key then
        { ingress with object := { ingress.object with metadata := { ingress.object.metadata with
            annotations := insert ingress.object.metadata.annotations
              ANNOTATION_OBSERVED_GENERATION (decimal generation) } } }
      else ingress

/-- A write comes back through the watch. -/
def Stores.land (s : Stores) (write : Write) : Stores :=
  { s with ingresses := s.ingresses.map write.on }

end Mirrors

section Loop

/-- The loop with what it retains, the mirrors it reads and everything it has sent. -/
structure World (F : Type) where
  stores : Stores
  current : Option (CompiledConfig F)
  publishedDigest : Option Nat
  status : Option StatusWriter
  published : List (CompiledConfig F)
  sent : List Write

/-- What can happen: the cluster changes, one of our writes comes back, or the loop turns. -/
inductive Act where
  | change (stores : Stores)
  | land (write : Write)
  | rebuild (resynced : Bool) (answer : ServiceAnswer) (stuck : Nat → Bool)

variable {F : Type} (fl : Floats F) (rx : RegexEngine) (opts : ControllerOpts)

/-- The empty configuration the channel holds before anything was compiled. -/
def seed : Except BuildError (CompiledConfig F) := do
  let table ← ({} : RouteTableBuilder).build
  return ⟨table, [], [], 0⟩

def spawn (status : StatusOpts) (stores : Stores) : Except BuildError (World F) := do
  let config ← seed
  return ⟨stores, some config, none, StatusWriter.new status, [], []⟩

/-- A translation is published unless it announces what the last one announced. -/
def publish (w : World F) (r : Translation F) : World F :=
  if w.publishedDigest = some r.digest then w
  else { w with
    published := w.published ++ [r.config]
    current := some r.config
    publishedDigest := some r.digest }

/-- What was compiled is written back to the Ingresses. -/
def writeBack (managed : List ObjectKey) (answer : ServiceAnswer) (stuck : Nat → Bool)
    (w : World F) : World F :=
  match w.status with
  | none => w
  | some writer =>
      let generation := (w.current.map (·.table.generation)).getD 0
      let s := sync stuck managed generation (observedGenerations w.stores.snapshot) answer
        ⟨writer, w.sent⟩
      { w with status := some s.writer, sent := s.sent }

def compiled (w : World F) : Except BuildError (Translation F) :=
  translate fl rx w.stores.snapshot opts (w.current.map (·.table))

def rebuild (w : World F) (answer : ServiceAnswer) (stuck : Nat → Bool) : World F :=
  match compiled fl rx opts w with
  | .error _ => w
  | .ok r => writeBack r.managed answer stuck (publish w r)

/-- After a restarted watch, everything is written again. -/
def reassert (resynced : Bool) (w : World F) : World F :=
  if resynced then { w with status := w.status.map (·.invalidate) } else w

def step (w : World F) : Act → Option (World F)
  | .change stores => some { w with stores := stores }
  | .land write => if write ∈ w.sent then some { w with stores := w.stores.land write } else none
  | .rebuild resynced answer stuck => some (rebuild fl rx opts (reassert resynced w) answer stuck)

end Loop

end Ramjet.Controller.Rebuild
