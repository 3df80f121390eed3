/- digest: Certificates prepared generation by generation, and the table they are published with. -/

import Ramjet.Controller.Supplied
import Ramjet.Proxy.Operations

set_option autoImplicit false
set_option relaxedAutoImplicit false

namespace Ramjet.Ingressd.Applying

open Ramjet.Base.Octets
open Ramjet.Base.AssocMap
open Ramjet.Router.Rule
open Ramjet.Router.Table
open Ramjet.Router.Builder
open Ramjet.Controller.Objects
open Ramjet.Controller.Annotations
open Ramjet.Controller.Config
open Ramjet.Controller.Translate
open Ramjet.Controller.Supplied
open Ramjet.Controller.Secrets
open Ramjet.Controller.Plan
open Ramjet.Controller.Compiled
open Ramjet.Controller.Feed
open Ramjet.Router.RoutingAgreement (literalEngine)
open Ramjet.Controller.Totality (sniAt)
open Ramjet.Proxy.Tls
open Ramjet.Proxy.History
open Ramjet.Proxy.PublishOrder
open Ramjet.Proxy.Operations

section Preparing

/-- What one application of a configuration did. -/
structure Applied where
  generation : Nat := 0
  reused : Nat := 0
  parsed : Nat := 0
  rejected : Nat := 0
  deriving DecidableEq, Repr

variable {Key CertError F : Type} (certifiedKey : Bytes → Bytes → Except CertError Key)

/-- Every key of the last generation prepared, by handle id. -/
structure Publisher (Key : Type) where
  parsed : CertKeys Key := []

def Publisher.new : Publisher Key := {}

/-- One certificate: reused under its id, else parsed, else left out. -/
def prepareOne (parsed : CertKeys Key) (state : Applied × CertKeys Key) (material : CertMaterial) :
    Applied × CertKeys Key :=
  let (applied, keys) := state
  match get parsed material.handleId with
  | some key => ({ applied with reused := applied.reused + 1 }, insert keys material.handleId key)
  | none =>
      match certifiedKey material.certChainPem material.keyPem with
      | .ok key =>
          ({ applied with parsed := applied.parsed + 1 }, insert keys material.handleId key)
      | .error _ => ({ applied with rejected := applied.rejected + 1 }, keys)

/-- Parses one generation's certificates, reusing every id that survived. -/
def Publisher.prepare (p : Publisher Key) (config : CompiledConfig F) :
    (Applied × CertKeys Key) × Publisher Key :=
  let prepared := config.certs.foldl (prepareOne certifiedKey p.parsed)
    ({ generation := config.table.generation }, [])
  (prepared, ⟨prepared.2⟩)

/-- The keys of a configuration, every certificate parsed. -/
def afresh (config : CompiledConfig F) : CertKeys Key :=
  (Publisher.new.prepare certifiedKey config).1.2

end Preparing

section Applying

variable {Key Diff CertError F : Type} (certifiedKey : Bytes → Bytes → Except CertError Key)
  (diffJson : Option RouteTable → RouteTable → Diff)

/-- The task that applies generations, and the history it records them in. -/
structure Applier (Key Diff : Type) where
  publisher : Publisher Key := {}
  history : World Key Diff
  previous : Option RouteTable := none
  ready : Bool := false

/-- A generation taken from the controller, or an operator's pin or release. -/
inductive Event (F : Type) where
  | changed (config : CompiledConfig F) (now : Nat)
  | pin (generation : Nat)
  | unpin

/-- Records a compiled generation with its prepared certificates. -/
def Applier.changed (a : Applier Key Diff) (config : CompiledConfig F) (now : Nat) :
    Applier Key Diff :=
  let prepared := a.publisher.prepare certifiedKey config
  let op := .record prepared.1.1.generation config.digest (diffJson a.previous config.table)
    config.table prepared.1.2 now
  let published :=
    match (planned a.history op).outcome with
    | .recorded live => live
    | _ => false
  { publisher := prepared.2
    history := perform a.history op
    previous := some config.table
    ready := a.ready || published && decide (0 < prepared.1.1.generation) }

def Applier.react (a : Applier Key Diff) : Event F → Applier Key Diff
  | .changed config now => a.changed certifiedKey diffJson config now
  | .pin generation => { a with history := perform a.history (.pin generation) }
  | .unpin => { a with history := perform a.history .unpin }

/-- The process before its first generation: an empty table, and no certificate. -/
def started (capacity : Nat) (notify : Bool) : Applier Key Diff where
  history := World.new {} {} capacity notify

def Applier.after (a : Applier Key Diff) (events : List (Event F)) : Applier Key Diff :=
  events.foldl (Applier.react certifiedKey diffJson) a

/-- The configurations a run applies, in order. -/
def generations (events : List (Event F)) : List (CompiledConfig F) :=
  events.filterMap fun
    | .changed config _ => some config
    | _ => none

end Applying

section Purpose

variable {Key Diff CertError F : Type} (certifiedKey : Bytes → Bytes → Except CertError Key)

/-- What the controller hands over: a translation of some snapshot. -/
def Compiled (fl : Floats F) (rx : RegexEngine) (config : CompiledConfig F) : Prop :=
  ∃ snapshot opts previous r, translate fl rx snapshot opts previous = .ok r ∧ r.config = config

/-- An id names one certificate in all these configurations. -/
def Identified (configs : List (CompiledConfig F)) : Prop :=
  ∀ config ∈ configs, ∀ config' ∈ configs, ∀ m ∈ config.certs, ∀ m' ∈ config'.certs,
    m.handleId = m'.handleId → m = m'

/-- Every id that the table on the wire names is, in the store, what its own PEM parses to. -/
def Accompanied (applied : List (CompiledConfig F)) (h : World Key Diff) : Prop :=
  ∀ slot id, sniAt h.routes.table.tls slot = some id →
    ∃ config ∈ applied, config.table = h.routes.table ∧ ∃ m ∈ config.certs, m.handleId = id ∧
      h.certs.get id = (certifiedKey m.certChainPem m.keyPem).toOption

end Purpose

section Cache

variable {Key CertError F : Type} {certifiedKey : Bytes → Bytes → Except CertError Key}

/-- The keys with one certificate more, if it parses. -/
private def addKey (certifiedKey : Bytes → Bytes → Except CertError Key) (keys : CertKeys Key)
    (m : CertMaterial) : CertKeys Key :=
  match certifiedKey m.certChainPem m.keyPem with
  | .ok key => insert keys m.handleId key
  | .error _ => keys

/-- A cached key is the key its certificate parses to. -/
private theorem keys_prepareOne {parsed : CertKeys Key} {m : CertMaterial}
    (hcached : ∀ key, get parsed m.handleId = some key →
      certifiedKey m.certChainPem m.keyPem = .ok key) (state : Applied × CertKeys Key) :
    (prepareOne certifiedKey parsed state m).2 = addKey certifiedKey state.2 m := by
  unfold prepareOne addKey
  dsimp only
  cases hget : get parsed m.handleId with
  | some key => rw [hcached key hget]
  | none =>
      dsimp only
      cases certifiedKey m.certChainPem m.keyPem <;> rfl

private theorem keys_prepared {parsed : CertKeys Key} {certs : List CertMaterial}
    (hcached : ∀ m ∈ certs, ∀ key, get parsed m.handleId = some key →
      certifiedKey m.certChainPem m.keyPem = .ok key) (state : Applied × CertKeys Key) :
    (certs.foldl (prepareOne certifiedKey parsed) state).2 =
      certs.foldl (addKey certifiedKey) state.2 := by
  induction certs generalizing state with
  | nil => rfl
  | cons m rest ih =>
      have hrest := fun m' hm' => hcached m' (List.mem_cons_of_mem _ hm')
      rw [List.foldl_cons, List.foldl_cons, ih hrest,
        keys_prepareOne (hcached m List.mem_cons_self)]

/-- Preparing with a sound cache is parsing every certificate. -/
theorem prepare_eq_afresh {p : Publisher Key} {config : CompiledConfig F}
    (hcached : ∀ m ∈ config.certs, ∀ key, get p.parsed m.handleId = some key →
      certifiedKey m.certChainPem m.keyPem = .ok key) :
    (p.prepare certifiedKey config).1.2 = afresh certifiedKey config := by
  have hempty : ∀ m ∈ config.certs, ∀ key, get ([] : CertKeys Key) m.handleId = some key →
      certifiedKey m.certChainPem m.keyPem = .ok key := fun m _ key h => (by cases h)
  exact (keys_prepared hcached _).trans (keys_prepared hempty _).symm

private theorem afresh_eq (config : CompiledConfig F) :
    afresh certifiedKey config = config.certs.foldl (addKey certifiedKey) [] :=
  keys_prepared (fun _ _ _ h => (by cases h)) _

private theorem source_addKeys (certs : List CertMaterial) (keys : CertKeys Key) {id : Nat}
    {key : Key} (h : get (certs.foldl (addKey certifiedKey) keys) id = some key) :
    get keys id = some key ∨
      ∃ m ∈ certs, m.handleId = id ∧ certifiedKey m.certChainPem m.keyPem = .ok key := by
  induction certs generalizing keys with
  | nil => exact Or.inl h
  | cons m rest ih =>
      rcases ih (addKey certifiedKey keys m) h with h | ⟨m', hm', hsource⟩
      · unfold addKey at h
        split at h
        · rename_i parsed hparsed
          rw [get_insert] at h
          split at h
          · rename_i hid
            cases h
            exact Or.inr ⟨m, List.mem_cons_self, hid.symm, hparsed⟩
          · exact Or.inl h
        · exact Or.inl h
      · exact Or.inr ⟨m', List.mem_cons_of_mem _ hm', hsource⟩

/-- Every key comes from a certificate of its id. -/
theorem source_afresh {config : CompiledConfig F} {id : Nat} {key : Key}
    (h : get (afresh certifiedKey config) id = some key) :
    ∃ m ∈ config.certs, m.handleId = id ∧ certifiedKey m.certChainPem m.keyPem = .ok key := by
  rw [afresh_eq] at h
  rcases source_addKeys config.certs [] h with h | h
  · cases h
  · exact h

private theorem get_addKeys {certs : List CertMaterial} {m : CertMaterial}
    (hone : ∀ m' ∈ certs, m'.handleId = m.handleId → m' = m) (keys : CertKeys Key)
    (h : get keys m.handleId = (certifiedKey m.certChainPem m.keyPem).toOption) :
    get (certs.foldl (addKey certifiedKey) keys) m.handleId =
      (certifiedKey m.certChainPem m.keyPem).toOption := by
  induction certs generalizing keys with
  | nil => exact h
  | cons m' rest ih =>
      refine ih (fun m'' hm'' => hone m'' (List.mem_cons_of_mem _ hm'')) _ ?_
      unfold addKey
      cases hparsed : certifiedKey m'.certChainPem m'.keyPem with
      | error err => exact h
      | ok key =>
          dsimp only
          rw [get_insert]
          split
          · rename_i hid
            rw [← hone m' List.mem_cons_self hid.symm, hparsed]
            rfl
          · exact h

/-- Where an id names one certificate, its key is what that certificate parses to. -/
theorem get_afresh {config : CompiledConfig F} {m : CertMaterial} (hm : m ∈ config.certs)
    (hone : ∀ m' ∈ config.certs, m'.handleId = m.handleId → m' = m) :
    get (afresh certifiedKey config) m.handleId =
      (certifiedKey m.certChainPem m.keyPem).toOption := by
  rw [afresh_eq]
  obtain ⟨before, after, hcerts⟩ := List.append_of_mem hm
  rw [hcerts] at hone ⊢
  rw [List.foldl_append, List.foldl_cons]
  refine get_addKeys (fun m' hm' => hone m' (by simp [hm'])) _ ?_
  cases hparsed : certifiedKey m.certChainPem m.keyPem with
  | ok key =>
      have hadded : ∀ keys, addKey certifiedKey keys m = insert keys m.handleId key := by
        intro keys
        rw [addKey, hparsed]
      rw [hadded, get_insert_self]
      rfl
  | error err =>
      have hskipped : ∀ keys, addKey certifiedKey keys m = keys := by
        intro keys
        rw [addKey, hparsed]
      rw [hskipped]
      cases hkey : get (before.foldl (addKey certifiedKey) []) m.handleId with
      | none => rfl
      | some key =>
          rcases source_addKeys before [] hkey with hkey | ⟨m', hm', hid, hkey⟩
          · cases hkey
          · rw [hone m' (by simp [hm']) hid, hparsed] at hkey
            cases hkey

end Cache

section Runs

variable {Key Diff CertError F : Type} {certifiedKey : Bytes → Bytes → Except CertError Key}
  {diffJson : Option RouteTable → RouteTable → Diff}

/-- What the applier holds once these configurations are applied. -/
structure Sound (certifiedKey : Bytes → Bytes → Except CertError Key)
    (applied : List (CompiledConfig F)) (a : Applier Key Diff) : Prop where
  cache : ∀ id key, get a.publisher.parsed id = some key → ∃ config ∈ applied,
    ∃ m ∈ config.certs, m.handleId = id ∧ certifiedKey m.certChainPem m.keyPem = .ok key
  ring : ∀ record ∈ a.history.state.ring, ∃ config ∈ applied,
    (record.keys, record.table) = (afresh certifiedKey config, config.table)
  served : served a.history = ([], {}) ∨ ∃ config ∈ applied,
    served a.history = (afresh certifiedKey config, config.table)

/-- What is recorded, held and served stays among the configurations applied. -/
private theorem history_perform {applied : List (CompiledConfig F)} {h : World Key Diff}
    (hring : ∀ record ∈ h.state.ring, ∃ config ∈ applied,
      (record.keys, record.table) = (afresh certifiedKey config, config.table))
    (hserved : served h = ([], {}) ∨ ∃ config ∈ applied,
      served h = (afresh certifiedKey config, config.table)) (op : Op Key Diff)
    (hop : ∀ generation digest diff table keys now,
      op = .record generation digest diff table keys now → ∃ config ∈ applied,
        (keys, table) = (afresh certifiedKey config, config.table)) :
    (∀ record ∈ (perform h op).state.ring, ∃ config ∈ applied,
      (record.keys, record.table) = (afresh certifiedKey config, config.table)) ∧
    (served (perform h op) = ([], {}) ∨ ∃ config ∈ applied,
      served (perform h op) = (afresh certifiedKey config, config.table)) := by
  have hmarked : ∀ (s : State Key Diff) generation, s.ring = h.state.ring →
      ∀ record ∈ (s.markPublished generation).ring, ∃ config ∈ applied,
        (record.keys, record.table) = (afresh certifiedKey config, config.table) := by
    intro s generation hsame record hrecord
    obtain ⟨entry, hentry, ⟨-, rfl⟩ | ⟨-, rfl⟩⟩ := mem_ring_markPublished hrecord
    · exact hring entry (hsame ▸ hentry)
    · exact hring record (hsame ▸ hentry)
  rw [served_perform, state_perform]
  obtain ⟨p, hp, heffect⟩ := exists_effect h op
  rw [hp]
  cases heffect with
  | live generation digest diff table keys now hpinned =>
      obtain ⟨config, hconfig, hsame⟩ := hop _ _ _ _ _ _ rfl
      refine ⟨fun record hrecord => ?_, Or.inr ⟨config, hconfig, hsame⟩⟩
      rcases mem_ring_push hrecord with rfl | ⟨hmem, -⟩
      · exact ⟨config, hconfig, hsame⟩
      · exact hring record hmem
  | heldBack generation digest diff table keys now current hpinned =>
      obtain ⟨config, hconfig, hsame⟩ := hop _ _ _ _ _ _ rfl
      refine ⟨fun record hrecord => ?_, hserved⟩
      rcases mem_ring_push hrecord with rfl | ⟨hmem, -⟩
      · exact ⟨config, hconfig, hsame⟩
      · exact hring record hmem
  | refused generation error => exact ⟨hring, hserved⟩
  | pinned record hpinned hmem =>
      obtain ⟨config, hconfig, hsame⟩ := hring record hmem
      exact ⟨hmarked _ _ rfl, Or.inr ⟨config, hconfig, hsame⟩⟩
  | unheld hpinned => exact ⟨hring, hserved⟩
  | emptied current hpinned hempty => exact ⟨hring, hserved⟩
  | resumed current latest hpinned hlatest =>
      obtain ⟨config, hconfig, hsame⟩ := hring latest (List.mem_of_getLast? hlatest)
      exact ⟨hmarked _ _ rfl, Or.inr ⟨config, hconfig, hsame⟩⟩

private theorem Sound.mono {applied applied' : List (CompiledConfig F)} {a : Applier Key Diff}
    (h : Sound certifiedKey applied a) (hsub : applied ⊆ applied') :
    Sound certifiedKey applied' a where
  cache id key hkey := by
    obtain ⟨config, hconfig, hsource⟩ := h.cache id key hkey
    exact ⟨config, hsub hconfig, hsource⟩
  ring record hrecord := by
    obtain ⟨config, hconfig, hsame⟩ := h.ring record hrecord
    exact ⟨config, hsub hconfig, hsame⟩
  served := h.served.imp_right fun ⟨config, hconfig, hsame⟩ => ⟨config, hsub hconfig, hsame⟩

/-- A sound cache holds nothing but what the next configuration's certificates parse to. -/
private theorem Sound.cached {applied : List (CompiledConfig F)} {a : Applier Key Diff}
    (h : Sound certifiedKey applied a) {config : CompiledConfig F}
    (hids : Identified (applied ++ [config])) :
    ∀ m ∈ config.certs, ∀ key, get a.publisher.parsed m.handleId = some key →
      certifiedKey m.certChainPem m.keyPem = .ok key := by
  intro m hm key hkey
  obtain ⟨config', hconfig', m', hm', hid, hparsed⟩ := h.cache _ key hkey
  rw [hids config (by simp) config' (by simp [hconfig']) m hm m' hm' hid.symm]
  exact hparsed

private theorem sound_react {applied : List (CompiledConfig F)} {a : Applier Key Diff}
    (h : Sound certifiedKey applied a) (event : Event F)
    (hids : Identified (applied ++ generations [event])) :
    Sound certifiedKey (applied ++ generations [event])
      (a.react certifiedKey diffJson event) := by
  cases event with
  | pin generation =>
      have hgenerations : generations [(.pin generation : Event F)] = [] := rfl
      rw [hgenerations, List.append_nil]
      obtain ⟨hring, hserved⟩ := history_perform h.ring h.served (.pin generation)
        fun _ _ _ _ _ _ hop => (by cases hop)
      exact ⟨h.cache, hring, hserved⟩
  | unpin =>
      have hgenerations : generations [(.unpin : Event F)] = [] := rfl
      rw [hgenerations, List.append_nil]
      obtain ⟨hring, hserved⟩ := history_perform h.ring h.served .unpin
        fun _ _ _ _ _ _ hop => (by cases hop)
      exact ⟨h.cache, hring, hserved⟩
  | changed config now =>
      have hgenerations : generations [(.changed config now : Event F)] = [config] := rfl
      rw [hgenerations] at hids ⊢
      have hkeys := prepare_eq_afresh (h.cached hids)
      have hmore := h.mono (List.subset_append_left applied [config])
      obtain ⟨hring, hserved⟩ := history_perform hmore.ring hmore.served
        (.record (a.publisher.prepare certifiedKey config).1.1.generation config.digest
          (diffJson a.previous config.table) config.table
          (a.publisher.prepare certifiedKey config).1.2 now) (by
            intro _ _ _ _ _ _ hop
            cases hop
            exact ⟨config, by simp, by rw [hkeys]⟩)
      refine ⟨fun id key hkey => ?_, hring, hserved⟩
      have hparsed : get (a.publisher.prepare certifiedKey config).1.2 id = some key := hkey
      rw [hkeys] at hparsed
      obtain ⟨m, hm, hsource⟩ := source_afresh hparsed
      exact ⟨config, by simp, m, hm, hsource⟩

private theorem identified_of_subset {configs configs' : List (CompiledConfig F)}
    (h : Identified configs') (hsub : configs ⊆ configs') : Identified configs :=
  fun config hconfig config' hconfig' => h config (hsub hconfig) config' (hsub hconfig')

private theorem generations_append (events events' : List (Event F)) :
    generations (events ++ events') = generations events ++ generations events' :=
  List.filterMap_append

private theorem sound_after (certifiedKey : Bytes → Bytes → Except CertError Key)
    (diffJson : Option RouteTable → RouteTable → Diff) (capacity : Nat) (notify : Bool)
    (events : List (Event F)) (hids : Identified (generations events)) :
    Sound certifiedKey (generations events)
      ((started capacity notify).after certifiedKey diffJson events) := by
  induction events using List.reverseRecOn with
  | nil => exact ⟨fun _ _ h => (by cases h), fun _ h => (by cases h), Or.inl rfl⟩
  | append_singleton events event ih =>
      rw [generations_append] at hids ⊢
      have hbefore := ih (identified_of_subset hids (List.subset_append_left _ _))
      rw [Applier.after, List.foldl_append]
      exact sound_react hbefore event hids

/-- After every generation, pin and release of a run, what the table on the wire names is in the
store as its own PEM parses; and every generation is prepared as if nothing had been cached. -/
theorem certificates_accompany (fl : Floats F) (rx : RegexEngine) (capacity : Nat) (notify : Bool)
    (events : List (Event F)) (hcompiled : ∀ config ∈ generations events, Compiled fl rx config)
    (hids : Identified (generations events)) :
    (∀ before, before <+: events →
      Accompanied certifiedKey (generations before)
        ((started capacity notify).after certifiedKey diffJson before : Applier Key Diff).history) ∧
    ∀ before config now rest, events = before ++ .changed config now :: rest →
      (((started capacity notify).after certifiedKey diffJson before :
        Applier Key Diff).publisher.prepare certifiedKey config).1.2 =
          afresh certifiedKey config := by
  constructor
  · rintro before ⟨rest, rfl⟩ slot id hnamed
    rw [generations_append] at hcompiled hids
    have hbefore := identified_of_subset hids (List.subset_append_left _ _)
    have hsound := sound_after certifiedKey diffJson capacity notify before hbefore
    rcases hsound.served with hserved | ⟨config, hconfig, hserved⟩
    · obtain ⟨-, htable⟩ := Prod.mk.inj hserved
      rw [htable] at hnamed
      cases slot <;> cases hnamed
    · obtain ⟨hkeys, htable⟩ := Prod.mk.inj hserved
      obtain ⟨snapshot, opts, previous, r, hr, rfl⟩ :=
        hcompiled config (List.mem_append_left _ hconfig)
      rw [htable] at hnamed
      obtain ⟨m, hm, rfl⟩ := named_supplied snapshot opts fl rx hr hnamed
      refine ⟨r.config, hconfig, htable.symm, m, hm, rfl, ?_⟩
      rw [CertStore.get, hkeys]
      exact get_afresh hm fun m' hm' hid => hbefore _ hconfig _ hconfig m' hm' m hm hid
  · rintro before config now rest rfl
    have hnext : generations (.changed config now :: rest) = config :: generations rest := rfl
    rw [generations_append, hnext] at hids
    have hsub : generations before ++ [config] ⊆
        generations before ++ config :: generations rest := by
      intro c hc
      rcases List.mem_append.mp hc with hc | hc
      · exact List.mem_append_left _ hc
      · exact List.mem_append_right _ (List.mem_cons.mpr (Or.inl (List.mem_singleton.mp hc)))
    have hsound := sound_after certifiedKey diffJson capacity notify before
      (identified_of_subset hids (List.subset_append_left _ _))
    exact prepare_eq_afresh (hsound.cached (identified_of_subset hids hsub))

/-- A host with a certificate of its own. -/
def tlsShop : ClusterSnapshot where
  ingresses := [{
    metadata := { name := some (ascii "shop"), namespace_ := some (ascii "default"),
                  annotations := [(ANNOTATION_LEGACY_CLASS, ascii "ramjet")] }
    spec := some { tls := some [⟨some [ascii "shop.test"], some (ascii "cert")⟩] } }]
  secrets := [{
    metadata := { name := some (ascii "cert"), namespace_ := some (ascii "default") }
    type_ := some TLS_SECRET_TYPE
    data := some [(TLS_CRT, PEM_MARKER), (TLS_KEY, PEM_MARKER)] }]

private theorem tlsShop_facts : (backendNames tlsShop {}).Nodup ∧
    (suppliedCerts tlsShop {} (planSnapshot tlsShop {}).managed).length = 1 := by
  decide +kernel

/-- A certificate that is applied, pinned, and reused. -/
theorem certificates_accompany_shop :
    ∃ r, translate noFloats literalEngine tlsShop {} none = .ok r ∧
      (∀ before, before <+: [.changed r.config 0, .pin 1, .changed r.config 1] →
        Accompanied (fun chain key => (.ok (chain, key) : Except Unit (Bytes × Bytes)))
          (generations before) ((started 10 false).after
            (fun chain key => (.ok (chain, key) : Except Unit (Bytes × Bytes))) (fun _ _ => ())
            before : Applier (Bytes × Bytes) Unit).history) ∧
      ∀ before config now rest,
        [.changed r.config 0, .pin 1, .changed r.config 1] = before ++ .changed config now :: rest →
          (((started 10 false).after
            (fun chain key => (.ok (chain, key) : Except Unit (Bytes × Bytes))) (fun _ _ => ())
            before : Applier (Bytes × Bytes) Unit).publisher.prepare
              (fun chain key => (.ok (chain, key) : Except Unit (Bytes × Bytes))) config).1.2 =
            afresh (fun chain key => (.ok (chain, key) : Except Unit (Bytes × Bytes))) config := by
  obtain ⟨hnames, hone⟩ := tlsShop_facts
  obtain ⟨r, hr⟩ := (translate_ok_iff noFloats literalEngine tlsShop {} none).mpr hnames
  have hcerts : r.config.certs.length = 1 := by
    obtain ⟨table, -, rfl⟩ := translate_announced noFloats literalEngine tlsShop {} none hr
    exact hone
  have hgenerations : generations [.changed r.config 0, .pin 1, .changed r.config 1] =
      [r.config, r.config] := rfl
  have hconfig : ∀ config ∈ generations [.changed r.config 0, .pin 1, .changed r.config 1],
      config = r.config := by
    intro config hmem
    rw [hgenerations] at hmem
    simpa using hmem
  refine ⟨r, hr, certificates_accompany noFloats literalEngine 10 false
    [.changed r.config 0, .pin 1, .changed r.config 1] ?_ ?_⟩
  · intro config hmem
    rw [hconfig config hmem]
    exact ⟨tlsShop, {}, none, r, hr, rfl⟩
  · intro config hmem config' hmem' m hm m' hm' _
    rw [hconfig config hmem] at hm
    rw [hconfig config' hmem'] at hm'
    obtain ⟨only, honly⟩ := List.length_eq_one_iff.mp hcerts
    rw [honly, List.mem_singleton] at hm hm'
    rw [hm, hm']

end Runs

end Ramjet.Ingressd.Applying
