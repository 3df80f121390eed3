/- digest: Completions, notes and drains keep each descriptor with its owner. -/

import Ramjet.Engine.Worker.Keeping

set_option autoImplicit false
set_option relaxedAutoImplicit false

namespace Ramjet.Engine.Worker.Arrivals

open Ramjet.Base.Octets
open Ramjet.Base.Net
open Ramjet.Engine.IdlePool
open Ramjet.Engine.Tls
open Ramjet.Engine.Worker.Accounting
open Ramjet.Engine.Worker.Connection
open Ramjet.Engine.Worker.Core
open Ramjet.Engine.Worker.Serving
open Ramjet.Engine.Worker.Handlers
open Ramjet.Engine.Worker.Loop
open Ramjet.Engine.Worker.Descriptors
open Ramjet.Engine.Worker.Ownership
open Ramjet.Engine.Worker.Moves
open Ramjet.Engine.Worker.Events
open Ramjet.Engine.Worker.Keeping

section Retiring

variable {s : Bool} {w : World} {op : Op} {k : Kind} {down : Fd} {c c' : Conn}

/-- Whom an operation concerns that nothing has overtaken. -/
theorem concerns_live (h : Live w op k) (hk : k ≠ .close) (k' : Kind) :
    concerns w op.fd k' op = decide (k' = k) := by
  have hkind := h.kind
  by_cases hk' : k' = k
  · subst hk'
    simp [concerns, hkind, hk, h.now]
  · have hne : (k == k') = false := by simpa using Ne.symm hk'
    simp [concerns, hkind, hk', hne]

theorem flight_live (h : Live w op k) (hk : k ≠ .close) : flightOf w op.fd k ≠ 0 := by
  have hflight := flight_of_mem h.mem (by rw [h.kind]; exact hk) h.now
  rw [h.kind] at hflight
  exact hflight

/-- An operation over: one less in flight. -/
theorem view_live (h : Live w op k) (hk : k ≠ .close) (outcome : Outcome) :
    viewOf (w.retire op outcome) = (viewOf w).stir op.fd fun k' =>
      flightOf w op.fd k' - if k' = k then 1 else 0 := by
  rw [view_retire h.mem]
  congr 1
  funext k'
  rw [concerns_live h hk]
  by_cases hk' : k' = k <;> simp [hk']

/-- A client's operation is over. -/
theorem Kept.retireDown (h : Kept s w) (hop : Live w op k) (hk : k ≠ .close) (outcome : Outcome)
    (hslot : w.slots op.fd = .client c) (hup : c'.upstream = c.upstream)
    (hb : c'.upBorrowed = c.upBorrowed) (hupk : ∀ k, (tiesOf c').up k = (tiesOf c).up k)
    (hdown : ∀ k', (tiesOf c').down k' = (tiesOf c).down k' - if k' = k then 1 else 0)
    (hc : Steady c') : Kept s ((w.retire op outcome).setClient op.fd c') := by
  refine ⟨tagged_setSlot (tagged_retire h.tagged op outcome) op.fd _, ?_, h.distinct, ?_⟩
  · obtain ⟨own, ho⟩ := h.owned
    rw [view_setClient, view_live hop hk]
    refine ⟨own, ho.retie (role_client hslot) hup hb (fun _ => hupk) hc.shape fun k' => ?_⟩
    rw [h.down hslot k', hdown k']
  · exact h.steady.client op.fd hc

/-- An operation on the upstream of a connection is over. -/
theorem Kept.retireUp (h : Kept s w) (hop : Live w op k) (hk : k ≠ .close) (outcome : Outcome)
    (hslot : w.slots down = .client c) (hu : c.upstream = some op.fd) (hb : c.upBorrowed = false)
    (hup : c'.upstream = some op.fd) (hb' : c'.upBorrowed = false)
    (hdown : ∀ k, (tiesOf c').down k = (tiesOf c).down k)
    (hupk : ∀ k', (tiesOf c').up k' = (tiesOf c).up k' - if k' = k then 1 else 0)
    (hc : Steady c') : Kept s ((w.retire op outcome).setClient down c') := by
  refine ⟨tagged_setSlot (tagged_retire h.tagged op outcome) down _, ?_, h.distinct, ?_⟩
  · obtain ⟨own, ho⟩ := h.owned
    have hnear := h.upFlight hslot hu hb
    rw [view_setClient, view_live hop hk]
    refine ⟨own, ho.stirUp (role_client hslot) hu hb hup hb' hdown hc.shape fun k' => ?_⟩
    obtain ⟨hle, heq⟩ := hnear k'
    rw [hupk k']
    exact ⟨Nat.sub_le_sub_right hle _, fun hs => congrArg (· - _) (heq hs)⟩
  · exact h.steady.client down hc

end Retiring

section Reading

variable (env : Outside) (ans : Answers)

/-- What bytes off the client's socket leave of its connection. -/
structure Taken (c c' : Conn) : Prop where
  alike : Alike c c'
  seen : c'.responseHeadSeen = c.responseHeadSeen
  targets : c'.targets = c.targets
  attempt : c'.attempt = c.attempt
  phase : c'.phase = c.phase ∨ c'.phase = .closing

variable {c c' : Conn}

theorem Taken.of_same (hphase : c'.phase = c.phase ∨ c'.phase = .closing)
    (h : ∃ peer phase tls handOff preface inbox outbox clientEof deadline book, c' = { c with
      peer := peer, phase := phase, tls := tls, handOff := handOff, preface := preface
      inbox := inbox, outbox := outbox, clientEof := clientEof, deadline := deadline
      book := book }) : Taken c c' := by
  obtain ⟨_, _, _, _, _, _, _, _, _, _, rfl⟩ := h
  exact ⟨⟨rfl, rfl, rfl, rfl, rfl, rfl, rfl⟩, rfl, rfl, rfl, hphase⟩

theorem Taken.refl (c : Conn) : Taken c c := ⟨.refl c, rfl, rfl, rfl, .inl rfl⟩

theorem Taken.trans {c'' : Conn} (h : Taken c c') (h' : Taken c' c'') : Taken c c'' :=
  ⟨h.alike.trans h'.alike, h'.seen.trans h.seen, h'.targets.trans h.targets,
    h'.attempt.trans h.attempt, h'.phase.elim (fun hp => hp ▸ h.phase) .inr⟩

theorem greet_taken (config : Config) (c : Conn) (session : Session) (offer : Offer) :
    Taken c (greet ans config c session offer) := by
  unfold greet
  split
  · exact .of_same (.inl rfl) ⟨_, _, _, _, _, _, _, _, _, _, rfl⟩
  · split
    · exact .of_same (.inr rfl) ⟨_, _, _, _, _, _, _, _, _, _, rfl⟩
    · dsimp only
      split
      · exact .of_same (.inr rfl) ⟨_, _, _, _, _, _, _, _, _, _, rfl⟩
      · exact .of_same (.inl rfl) ⟨_, _, _, _, _, _, _, _, _, _, rfl⟩

theorem unwrap_taken (config : Config) (c : Conn) (bytes : Bytes) :
    Taken c (unwrap ans config c bytes) := by
  unfold unwrap
  dsimp only
  split
  · exact .of_same (.inl rfl) ⟨_, _, _, _, _, _, _, _, _, _, rfl⟩
  · split
    · exact .of_same (.inr rfl) ⟨_, _, _, _, _, _, _, _, _, _, rfl⟩
    · refine Taken.trans ?_ (greet_taken ans config _ _ _)
      exact .of_same (.inl rfl) ⟨_, _, _, _, _, _, _, _, _, _, rfl⟩
    · exact .of_same (.inl rfl) ⟨_, _, _, _, _, _, _, _, _, _, rfl⟩

theorem ingest_taken (w : World) (c : Conn) (bytes : Bytes) :
    Taken c (ingest env ans w c bytes) := by
  unfold ingest
  split
  · exact unwrap_taken ans _ c bytes
  · dsimp only
    split
    · exact .of_same (.inl rfl) ⟨_, _, _, _, _, _, _, _, _, _, rfl⟩
    · exact .of_same (.inr rfl) ⟨_, _, _, _, _, _, _, _, _, _, rfl⟩
    · refine Taken.trans ?_ (unwrap_taken ans _ _ _)
      exact .of_same (.inl rfl) ⟨_, _, _, _, _, _, _, _, _, _, rfl⟩

theorem readClient_taken (w : World) (c : Conn) (outcome : Outcome) :
    Taken c (readClient env ans w c outcome) := by
  unfold readClient
  split
  · dsimp only
    split
    · exact .of_same (.inl rfl) ⟨_, _, _, _, _, _, _, _, _, _, rfl⟩
    · exact .of_same (.inl rfl) ⟨_, _, _, _, _, _, _, _, _, _, rfl⟩
  · rename_i bytes _
    dsimp only
    have hheard : Taken c { c with book := c.book.hearClient w.clock } :=
      .of_same (.inl rfl) ⟨_, _, _, _, _, _, _, _, _, _, rfl⟩
    have htaken := hheard.trans (ingest_taken env ans w _ bytes)
    split
    · exact htaken.trans (.of_same (.inl rfl) ⟨_, _, _, _, _, _, _, _, _, _, rfl⟩)
    · exact htaken
  · exact .of_same (.inr rfl) ⟨_, _, _, _, _, _, _, _, _, _, rfl⟩

/-- A greeting that a session no longer in its handshake has behind it. -/
theorem greeted_of_stage (hgiven : c.handOff = false) {session : Session}
    (htls : c.tls = some session) (hhello : session.state ≠ .hello)
    (hready : session.state ≠ .ready) : Greeted c := by
  have hstage : stage c = some session.state := by
    unfold stage
    rw [htls]
    rfl
  refine ⟨hgiven, ?_, ?_⟩
  · rw [hstage]
    exact fun he => hhello (Option.some.inj he)
  · rw [hstage]
    exact fun he => hready (Option.some.inj he)

theorem greeted_of_plain (hgiven : c.handOff = false) (htls : c.tls = none) : Greeted c := by
  have hstage : stage c = none := by
    unfold stage
    rw [htls]
    rfl
  exact ⟨hgiven, by rw [hstage]; nofun, by rw [hstage]; nofun⟩

theorem feedLive_state (r : Rustls) (s : Session) :
    (s.feedLive r).2.state ≠ .hello ∧ (s.feedLive r).2.state ≠ .ready := by
  unfold Session.feedLive
  split
  · dsimp only
    split <;> exact ⟨nofun, nofun⟩
  · exact ⟨nofun, nofun⟩

theorem accept_state (r : Rustls) (s : Session) :
    (s.accept r).2.2.state ≠ .hello ∧ (s.accept r).2.2.state ≠ .ready := by
  unfold Session.accept
  split
  · dsimp only
    split
    · exact ⟨nofun, nofun⟩
    · exact ⟨nofun, nofun⟩
    · split
      · exact ⟨nofun, nofun⟩
      · exact feedLive_state r _
  · exact ⟨nofun, nofun⟩

theorem takeEstablished_state (s : Session) : s.takeEstablished.2.state = s.state := by
  unfold Session.takeEstablished
  split <;> rfl

theorem established_greeted (h : Greeted c) : Greeted (established c) := by
  refine greeted_of_same h rfl ?_
  unfold stage established
  rw [Option.map_map]
  congr 1
  funext session
  exact takeEstablished_state session

/-- Whoever has been read a hello is greeted, or is to be handed over. -/
theorem greet_greeting (config : Config) (c : Conn) (session : Session) (offer : Offer)
    (hgiven : c.handOff = false) (hready : session.state = .ready) :
    Greeted (greet ans config c session offer) ∨
      ((greet ans config c session offer).handOff = true ∧
        stage (greet ans config c session offer) = some .ready ∧
        (greet ans config c session offer).inbox = c.inbox) := by
  unfold greet
  split
  · refine .inr ⟨rfl, ?_, rfl⟩
    rw [← hready]
    rfl
  · split
    · exact .inl (greeted_of_stage hgiven rfl nofun nofun)
    · have hstate := accept_state ans.rustls session
      dsimp only
      split
      · exact .inl (greeted_of_stage hgiven rfl hstate.1 hstate.2)
      · exact .inl (established_greeted (greeted_of_stage hgiven rfl hstate.1 hstate.2))

/-- A connection that goes on waiting. -/
theorem Taken.waiting (h : Taken c c') (hu : Unserved c) (hinbox : c'.inbox = c.inbox)
    (hwaiting : Waiting c') : Unserved c' := by
  refine ⟨hinbox.trans hu.inbox, h.targets.trans hu.targets, h.alike.upstream.trans hu.upstream,
    ?_, hwaiting⟩
  rcases h.phase with hphase | hphase
  · rw [hphase]
    exact hu.phase
  · exact .inr hphase

theorem Unserved.session (h : Unserved c) (hgiven : c.handOff = false) :
    ∃ session, c.tls = some session ∧ session.state = .hello := by
  have hstage : stage c = some .hello := by
    rcases h.waiting with hw | hw
    · exact hw.1
    · rw [hgiven] at hw
      cases hw.2
  exact Option.map_eq_some_iff.mp hstage

theorem Greeted.session (h : Greeted c) {session : Session} (htls : c.tls = some session) :
    session.state ≠ .hello ∧ session.state ≠ .ready := by
  have hstage : stage c = some session.state := by
    unfold stage
    rw [htls]
    rfl
  obtain ⟨-, hhello, hready⟩ := h
  rw [hstage] at hhello hready
  exact ⟨fun he => hhello (congrArg some he), fun he => hready (congrArg some he)⟩

/-- Once a hello has been read, nothing that follows is one. -/
theorem unwrap_greeted (config : Config) (c : Conn) (bytes : Bytes) (h : Greeted c) :
    Greeted (unwrap ans config c bytes) := by
  have hgiven := h.1
  unfold unwrap
  dsimp only
  split
  · rename_i hplain
    exact greeted_of_plain hgiven hplain
  · rename_i session hsession
    have hstate := Greeted.session h hsession
    have hfed : (session.feed ans.rustls bytes).2.2.state ≠ .hello ∧
        (session.feed ans.rustls bytes).2.2.state ≠ .ready := by
      unfold Session.feed
      split
      · exact hstate
      · rename_i hhello
        exact absurd hhello hstate.1
      · rename_i hready
        exact absurd hready hstate.2
      · exact feedLive_state ans.rustls session
    split
    · exact greeted_of_stage hgiven rfl nofun nofun
    · rename_i offer hoffer
      -- Only a session in its hello reports one.
      unfold Session.feed at hoffer
      split at hoffer
      · cases hoffer
      · rename_i hhello
        exact absurd hhello hstate.1
      · rename_i hready
        exact absurd hready hstate.2
      · unfold Session.feedLive at hoffer
        dsimp only at hoffer
        split at hoffer
        · split at hoffer <;> cases hoffer
        · cases hoffer
    · exact established_greeted (greeted_of_stage hgiven rfl hfed.1 hfed.2)

/-- The hello of a connection that has served nothing: still incomplete, or read. -/
theorem unwrap_unserved (config : Config) (c : Conn) (bytes : Bytes) (h : Unserved c)
    (hgiven : c.handOff = false) :
    Greeted (unwrap ans config c bytes) ∨ Unserved (unwrap ans config c bytes) := by
  have htaken := unwrap_taken ans config c bytes
  obtain ⟨session, hsession, hhello⟩ := Unserved.session h hgiven
  have hfed : session.feed ans.rustls bytes =
      ((session.feedHello ans.rustls bytes).1, [], (session.feedHello ans.rustls bytes).2) := by
    unfold Session.feed
    rw [hhello]
  unfold unwrap at htaken ⊢
  simp only [hsession, hfed] at htaken ⊢
  unfold Session.feedHello at htaken ⊢
  cases hanswer : ans.rustls.hello with
  | incomplete =>
      simp only [hanswer] at htaken ⊢
      refine .inr (htaken.waiting h (List.append_nil _) (.inl ⟨?_, hgiven⟩))
      rw [← hhello]
      exact congrArg some (takeEstablished_state _)
  | accepted offer =>
      simp only [hanswer] at htaken ⊢
      refine Or.imp id ?_ (greet_greeting ans config _ _ offer ?_ ?_)
      · rintro ⟨hto, hst, hin⟩
        exact htaken.waiting h (hin.trans (List.append_nil _)) (.inr ⟨hst, hto⟩)
      · exact hgiven
      · rfl
  | refused alert =>
      simp only
      exact .inl (greeted_of_stage hgiven rfl nofun nofun)

theorem unwrap_greeting (config : Config) (c : Conn) (bytes : Bytes) (h : Greeted c ∨ Unserved c)
    (hgiven : c.handOff = false) :
    Greeted (unwrap ans config c bytes) ∨ Unserved (unwrap ans config c bytes) := by
  rcases h with hgreeted | hunserved
  · exact .inl (unwrap_greeted ans config c bytes hgreeted)
  · exact unwrap_unserved ans config c bytes hunserved hgiven

/-- A connection greeted, or waiting, is so whatever else about it changes. -/
theorem greeting_same (h : Greeted c ∨ Unserved c) (hgiven : c'.handOff = c.handOff)
    (hstage : stage c' = stage c) (htaken : Taken c c') (hinbox : c'.inbox = c.inbox) :
    Greeted c' ∨ Unserved c' :=
  h.imp (greeted_of_same · hgiven hstage) fun hu =>
    htaken.waiting hu hinbox (waiting_of_same hu.waiting hgiven hstage)

theorem ingest_greeting (w : World) (c : Conn) (bytes : Bytes) (h : Greeted c ∨ Unserved c)
    (hgiven : c.handOff = false) :
    Greeted (ingest env ans w c bytes) ∨ Unserved (ingest env ans w c bytes) := by
  unfold ingest
  split
  · exact unwrap_greeting ans _ c bytes h hgiven
  · dsimp only
    split
    · exact greeting_same h rfl rfl (.of_same (.inl rfl) ⟨_, _, _, _, _, _, _, _, _, _, rfl⟩) rfl
    · exact greeting_same h rfl rfl (.of_same (.inr rfl) ⟨_, _, _, _, _, _, _, _, _, _, rfl⟩) rfl
    · refine unwrap_greeting ans _ _ _ ?_ hgiven
      exact greeting_same h rfl rfl (.of_same (.inl rfl) ⟨_, _, _, _, _, _, _, _, _, _, rfl⟩) rfl

theorem killed_greeted (hgiven : c'.handOff = false) {f : Session → Session}
    (htls : c'.tls = c.tls.map fun session => (f session).kill) : Greeted c' := by
  cases hsession : c.tls with
  | none => exact greeted_of_plain hgiven (by rw [htls, hsession]; rfl)
  | some session =>
      have hdead : c'.tls = some (f session).kill := by
        rw [htls, hsession]
        rfl
      exact greeted_of_stage hgiven hdead nofun nofun

theorem readClient_greeting (w : World) (c : Conn) (outcome : Outcome)
    (h : Greeted c ∨ Unserved c) (hgiven : c.handOff = false) :
    Greeted (readClient env ans w c outcome) ∨ Unserved (readClient env ans w c outcome) := by
  unfold readClient
  split
  · dsimp only
    split
    · exact greeting_same h rfl rfl (.of_same (.inl rfl) ⟨_, _, _, _, _, _, _, _, _, _, rfl⟩) rfl
    · exact .inl (killed_greeted hgiven (f := id) rfl)
  · rename_i bytes _
    dsimp only
    have hheard : Greeted { c with book := c.book.hearClient w.clock } ∨
        Unserved { c with book := c.book.hearClient w.clock } :=
      greeting_same h rfl rfl (.of_same (.inl rfl) ⟨_, _, _, _, _, _, _, _, _, _, rfl⟩) rfl
    have hingested := ingest_greeting env ans w _ bytes hheard hgiven
    split
    · exact greeting_same hingested rfl rfl
        (.of_same (.inl rfl) ⟨_, _, _, _, _, _, _, _, _, _, rfl⟩) rfl
    · exact hingested
  · exact .inl (killed_greeted hgiven
      (f := fun session => { session with wireOut := [] }) rfl)

/-- A connection that was read from is steady still. -/
theorem Steady.taken (h : Steady c) (htaken : Taken c c') (hgreeting : Greeted c' ∨ Unserved c') :
    Steady c' := by
  refine ⟨?_, hgreeting, ?_⟩
  · rcases htaken.phase with hphase | hphase
    · have hties : tiesOf c' = tiesOf c := by
        simp only [tiesOf, hphase, htaken.alike.upstream, htaken.alike.upBorrowed,
          htaken.alike.reading, htaken.alike.writing, htaken.alike.upReading,
          htaken.alike.upWriting, htaken.alike.upReady, htaken.seen]
      rw [hties]
      exact h.shape
    · refine shape_closing h.shape ?_
      simp only [tiesOf, hphase, htaken.alike.upstream, htaken.alike.upBorrowed,
        htaken.alike.reading, htaken.alike.writing, htaken.alike.upReading,
        htaken.alike.upWriting, htaken.alike.upReady, htaken.seen]
  · rw [htaken.alike.upstream, htaken.targets, htaken.attempt]
    exact h.aimed

end Reading

section Completing

variable {env : Outside} {s : Bool} {w : World} {op : Op} {down up : Fd} {c : Conn}

theorem Kept.readFrom (h : Kept s w) (ans : Answers) (outcome : Outcome)
    (hop : Live w op .downRead) (hslot : w.slots op.fd = .client c) (hreading : c.reading = true)
    (hgiven : c.handOff = false) :
    Kept s ((w.retire op outcome).setClient op.fd
      (readClient env ans (w.retire op outcome) { c with reading := false } outcome)) := by
  have hsteady := h.steady op.fd c hslot
  have htaken := readClient_taken env ans (w.retire op outcome) { c with reading := false } outcome
  have hquiet : Steady { c with reading := false } :=
    hsteady.reshape (shape_flags hsteady.shape false c.writing) rfl (.inl rfl) rfl rfl rfl rfl rfl
  have hgreeting := readClient_greeting env ans (w.retire op outcome) { c with reading := false }
    outcome hquiet.greeting hgiven
  refine Kept.retireDown h hop nofun outcome hslot htaken.alike.upstream htaken.alike.upBorrowed
    (up_congr htaken.alike.upReading htaken.alike.upWriting) ?_ (Steady.taken hquiet htaken hgreeting)
  intro k
  rw [down_congr htaken.alike.reading htaken.alike.writing]
  cases k <;> simp [tiesOf, Ties.down, hreading]

theorem wroteClient_fields (c : Conn) (outcome : Outcome) :
    ∃ outbox phase book, wroteClient c outcome = { c with
      writing := false, outbox := outbox, phase := phase, book := book } ∧
      (phase = c.phase ∨ phase = .closing) := by
  unfold wroteClient
  split
  · exact ⟨c.outbox, c.phase, c.book, rfl, .inl rfl⟩
  · exact ⟨[], .closing, c.book.tear, rfl, .inr rfl⟩

theorem Kept.wroteTo (h : Kept s w) (outcome : Outcome) (hop : Live w op .downWrite)
    (hslot : w.slots op.fd = .client c) (hwriting : c.writing = true) :
    Kept s ((w.retire op outcome).setClient op.fd (wroteClient c outcome)) := by
  have hsteady := h.steady op.fd c hslot
  obtain ⟨outbox, phase, book, hfields, hphase⟩ := wroteClient_fields c outcome
  rw [hfields]
  have hdone : Steady { c with writing := false, outbox := outbox, book := book } :=
    hsteady.reshape (shape_flags hsteady.shape c.reading false) rfl (.inl rfl) rfl rfl rfl rfl rfl
  refine Kept.retireDown h hop nofun outcome hslot rfl rfl (up_congr rfl rfl) ?_ ?_
  · intro k
    cases k <;> simp [tiesOf, Ties.down, hwriting]
  · rcases hphase with rfl | rfl
    · exact hdone
    · exact hdone.reshape (shape_closing hdone.shape rfl) rfl (.inr rfl) rfl rfl rfl rfl rfl

/-- A reading or writing upstream is one that is ready. -/
theorem Steady.unready (h : Steady c) (hup : c.upstream ≠ none) (hown : c.upBorrowed = false)
    (upReading upWriting : Bool) (hfree : c.upWriting = false → upWriting = false) :
    Shape (tiesOf { c with upReading := upReading, upWriting := upWriting }) := by
  refine ⟨fun hp => absurd (h.shape.head hp).1 hup, h.shape.early, h.shape.late, fun hb => ?_,
    fun hp hready => ?_⟩
  · rw [show c.upBorrowed = true from hb] at hown
    cases hown
  · obtain ⟨hnone, hquiet⟩ := h.shape.exchanging hp hready
    exact ⟨hnone, hfree hquiet⟩

theorem Kept.readFromUp (h : Kept s w) (outcome : Outcome) (hop : Live w op .upRead)
    (hslot : w.slots down = .client c) (hattached : c.upstream = some op.fd)
    (hown : c.upBorrowed = false) (hreading : c.upReading = true) :
    Kept s ((w.retire op outcome).setClient down
      (hear c outcome.bytes (stampsOf w op outcome))) := by
  have hsteady := h.steady down c hslot
  have hsome : c.upstream ≠ none := by
    rw [hattached]
    nofun
  refine Kept.retireUp h hop nofun outcome hslot hattached hown hattached hown (down_congr rfl rfl) ?_ ?_
  · intro k
    cases k <;> simp [tiesOf, Ties.up, hear, hreading]
  · exact hsteady.reshape (Steady.unready hsteady hsome hown false c.upWriting id) rfl (.inl rfl) rfl rfl
      rfl rfl rfl

theorem Kept.wroteToUp (h : Kept s w) (outcome : Outcome) (hop : Live w op .upWrite)
    (hslot : w.slots down = .client c) (hattached : c.upstream = some op.fd)
    (hown : c.upBorrowed = false) (hwriting : c.upWriting = true) :
    Kept s ((w.retire op outcome).setClient down
      (if outcome = .wrote then delivered c op.payload else { c with upWriting := false })) := by
  have hsteady := h.steady down c hslot
  have hsome : c.upstream ≠ none := by
    rw [hattached]
    nofun
  split
  · refine Kept.retireUp h hop nofun outcome hslot hattached hown hattached hown (down_congr rfl rfl)
      ?_ ?_
    · intro k
      cases k <;> simp [tiesOf, Ties.up, delivered, hwriting]
    · refine hsteady.reshape ?_ rfl (.inl rfl) rfl rfl rfl rfl rfl
      refine ⟨fun hp => absurd (hsteady.shape.head hp).1 hsome, hsteady.shape.early,
        hsteady.shape.late, fun hb => ?_, fun _ hready => ?_⟩
      · rw [show c.upBorrowed = true from hb] at hown
        cases hown
      · cases hready
  · refine Kept.retireUp h hop nofun outcome hslot hattached hown hattached hown (down_congr rfl rfl)
      ?_ ?_
    · intro k
      cases k <;> simp [tiesOf, Ties.up, hwriting]
    · exact hsteady.reshape (Steady.unready hsteady hsome hown c.upReading false fun _ => rfl) rfl (.inl rfl)
        rfl rfl rfl rfl rfl

end Completing

section Noted

variable {s : Bool} {w : World} {fd down up : Fd} {c : Conn} {ans : Answers}

/-- An upstream the helper holds is attached to a connection that waits for it. -/
theorem Steady.lent (h : Steady c) (hlent : c.upBorrowed = true) :
    c.responseHeadSeen = false ∧ c.upReading = false ∧ c.upWriting = false ∧
      (c.phase = .connecting ∨ c.phase = .closing) :=
  have hb := h.shape.borrowed hlent
  ⟨hb.2.2.2.1, hb.2.1, hb.2.2.1, hb.2.2.2.2⟩

theorem Kept.connects (h : Kept s w) (hmem : up ∈ w.borrowed) (hup : w.slots up = .upstream down)
    (hslot : w.slots down = .client c) (hattached : c.upstream = some up)
    (hlent : c.upBorrowed = true) :
    Kept s ({ w with borrowed := w.borrowed.erase up }.setClient down (connected c)) := by
  have hsteady := h.steady down c hslot
  obtain ⟨hseen, hreading, hwriting, -⟩ := Steady.lent hsteady hlent
  have haimed : c.attempt < c.targets.length := hsteady.aimed (by rw [hattached]; nofun)
  have hgreeted := hsteady.served haimed
  have hrole : (viewOf w).role up = .upstream down := congrArg roleOf hup
  have hnext : Steady (connected c) :=
    ⟨shape_exchanging rfl hseen rfl nofun, .inl hgreeted, fun _ => haimed⟩
  refine ⟨⟨h.tagged.gens, h.tagged.user, h.tagged.bumps, h.tagged.epochs⟩, ?_, h.distinct,
    h.steady.client down hnext⟩
  obtain ⟨own, ho⟩ := h.owned
  rw [view_setClient]
  refine ⟨_, ho.wake hmem hrole (role_client hslot) hattached rfl (down_congr rfl rfl) ?_
    hnext.shape⟩
  intro k
  cases k <;> simp [tiesOf, Ties.up, connected, hreading, hwriting]

/-- A descriptor with nothing in flight, closed behind the reactor's back. -/
theorem view_sysClose (hquiet : ∀ k, flightOf w up k = 0) :
    viewOf (w.sysClose up) = (viewOf w).shut up := by
  have hflight : Function.update (flightOf w) up (fun _ => 0) = flightOf w := by
    rw [Function.update_eq_self_iff]
    exact (funext hquiet).symm
  unfold View.shut
  show viewOf (w.sysClose up) = { viewOf w with
    opened := Function.update w.opened up false
    flight := Function.update (flightOf w) up fun _ => 0 }
  rw [hflight]
  rfl

/-- A descriptor the helper gave back, closed. -/
theorem view_given (hquiet : ∀ k, flightOf w up k = 0) (borrowed : List Fd) :
    viewOf (({ w with borrowed := borrowed }.setSlot up .empty).sysClose up) =
      { ((viewOf w).place up .empty).shut up with borrowed := borrowed } := by
  have hgiven : ∀ k, flightOf ({ w with borrowed := borrowed }.setSlot up .empty) up k = 0 := hquiet
  refine (view_sysClose hgiven).trans ?_
  rw [view_setSlot]
  rfl

theorem Kept.lentQuiet (h : Kept s w) (hmem : up ∈ w.borrowed) (k : Kind) :
    flightOf w up k = 0 := by
  obtain ⟨own, ho⟩ := h.owned
  have hfits := ho.fits up
  rw [ho.borrowed up hmem] at hfits
  exact hfits.2.2.1 k

theorem Kept.misses (h : Kept s w) (hmem : up ∈ w.borrowed) (hup : w.slots up = .upstream down)
    (hslot : w.slots down = .client c) (hattached : c.upstream = some up)
    (hlent : c.upBorrowed = true) :
    Kept s ((({ w with borrowed := w.borrowed.erase up }.setSlot up .empty).sysClose
      up).setClient down { c with upBorrowed := false, upstream := none }) := by
  have hsteady := h.steady down c hslot
  obtain ⟨hseen, hreading, hwriting, hphase⟩ := Steady.lent hsteady hlent
  have hgreeted := hsteady.served (hsteady.aimed (by rw [hattached]; nofun))
  have hrole : (viewOf w).role up = .upstream down := congrArg roleOf hup
  have hnext : Steady { c with upBorrowed := false, upstream := none } := by
    refine ⟨⟨?_, fun _ => hseen, ?_, nofun, ?_⟩, .inl hgreeted, fun hsome => absurd rfl hsome⟩
    · intro hp
      rw [show c.phase = .head from hp] at hphase
      simp at hphase
    · intro hp
      rcases hphase with hphase | hphase <;> rcases hp with hp | hp <;>
        rw [show c.phase = _ from hp] at hphase <;> cases hphase
    · intro hp
      rw [show c.phase = .exchanging from hp] at hphase
      simp at hphase
  refine ⟨⟨h.tagged.gens, h.tagged.user, h.tagged.bumps, h.tagged.epochs⟩, ?_, h.distinct, ?_⟩
  · obtain ⟨own, ho⟩ := h.owned
    rw [view_setClient, view_given (Kept.lentQuiet h hmem)]
    exact ⟨_, ho.miss hmem hrole (role_client hslot) rfl (down_congr rfl rfl) hnext.shape⟩
  · exact (h.steady.empty up).client down hnext

theorem view_begun (h : Kept s w) (hfree : w.opened fd = false) :
    viewOf ((w.opening fd).bumpGeneration fd) = (viewOf w).open_ fd := by
  have htagged := tagged_opening h.tagged (h.free hfree)
  refine view_eq (w := w.opening fd) (fun _ => rfl) rfl ?_ rfl rfl rfl rfl rfl rfl
  funext x k
  rw [flight_bump htagged]
  split
  · rename_i hx
    rw [hx]
    exact (h.free hfree k).symm
  · rfl

theorem newClient_steady (ans : Answers) (w : World) (tls : Bool) :
    Steady (newClient ans w tls) ∧ (newClient ans w tls).upstream = none ∧
      ∀ k, (tiesOf (newClient ans w tls)).down k = 0 := by
  have hshape : ∀ {c : Conn}, c.phase = .head → c.upstream = none → c.upBorrowed = false →
      c.upWriting = false → c.upReady = false → c.responseHeadSeen = false →
      Shape (tiesOf c) := by
    intro c hphase hup hown hwriting hready hseen
    refine ⟨fun _ => ⟨hup, hown, hwriting, hready, hseen⟩, fun _ => hseen, fun hp => ?_,
      fun hb => ?_, fun hp _ => ⟨hup, hwriting⟩⟩
    · rcases hp with hp | hp <;> rw [show c.phase = _ from hp] at hphase <;> cases hphase
    · rw [show c.upBorrowed = true from hb] at hown
      cases hown
  unfold newClient
  dsimp only
  split
  all_goals
    refine ⟨⟨hshape rfl rfl rfl rfl rfl rfl, ?_, fun hsome => absurd rfl hsome⟩, rfl, ?_⟩
    · cases tls with
      | false => exact .inl (greeted_of_plain rfl rfl)
      | true => exact .inr ⟨rfl, rfl, rfl, .inl rfl, .inl ⟨rfl, rfl⟩⟩
    · intro k
      cases k <;> rfl

theorem Kept.starts (h : Kept s w) (ans : Answers) (tls : Bool) (hfree : w.opened fd = false)
    (hserving : w.drainDeadline = none) :
    Kept s (((w.opening fd).bumpGeneration fd).setClient fd (newClient ans w tls)) := by
  have htagged := tagged_bump (tagged_opening h.tagged (h.free hfree)) fd
  obtain ⟨hnext, hup, hdown⟩ := newClient_steady ans w tls
  have hdraining : (viewOf w).draining = false := by
    show w.drainDeadline.isSome = false
    rw [hserving]
    rfl
  refine ⟨tagged_setSlot htagged fd _, ?_, h.distinct, h.steady.client fd hnext⟩
  obtain ⟨own, ho⟩ := h.owned
  rw [view_setClient, view_begun h hfree]
  exact ⟨_, ho.begin hdraining hfree hup hdown hnext.shape⟩

theorem Kept.spares (h : Kept s w) (hslot : w.slots fd = .client c) :
    Kept s ({ w with drainInflight := w.drainInflight + 1 }.setClient fd (spared c)) := by
  have hsteady := h.steady fd c hslot
  have hstill : Still w { w with drainInflight := w.drainInflight + 1 } :=
    ⟨rfl, rfl, rfl, rfl, rfl, rfl, rfl, rfl, rfl, rfl, rfl, rfl⟩
  refine (h.still hstill).retie hslot rfl rfl (fun _ => up_congr rfl rfl) (down_congr rfl rfl) ?_
  by_cases hphase : c.phase = .head
  · have hclosing : (spared c).phase = .closing := by
      simp [spared, hphase]
    refine hsteady.reshape (shape_closing hsteady.shape ?_) rfl (.inr hclosing) rfl rfl rfl rfl rfl
    simp only [tiesOf, hclosing]
    rfl
  · have hsame : (spared c).phase = c.phase := by
      simp [spared, hphase]
    refine hsteady.same ?_ rfl rfl rfl rfl rfl
    simp only [tiesOf, hsame]
    rfl

/-- A tunnel is cut off, and its upstream forgotten. -/
theorem Kept.cuts (h : Kept false w) (hslot : w.slots fd = .client c) (hphase : c.phase = .tunnel) :
    Kept false (w.close ans fd) := by
  have hsteady := h.steady fd c hslot
  cases hup : c.upstream with
  | none => exact h.leave hslot hup
  | some up =>
      refine ⟨tagged_close h.tagged ans fd, ?_, distinct_close h.distinct ans fd, ?_⟩
      · obtain ⟨own, ho⟩ := h.owned
        rw [view_close h.tagged]
        exact ⟨_, ho.cut (role_client hslot) hup (hsteady.own (.inr (.inr (.inl hphase))))⟩
      · rw [close_slots]
        exact h.steady.empty fd

end Noted

section Elsewhere

variable {s : Bool} {w : World} {op : Op} {k : Kind} {fd up down : Fd} {c : Conn} {ans : Answers}

theorem shut_stir (v : View) (f : Fd) (flight : Kind → Nat) :
    (v.stir f flight).shut f = v.shut f := by
  unfold View.stir View.shut
  rw [Function.update_idem]

/-- An operation that concerns nobody is over. -/
theorem Kept.drops (h : Kept s w) (outcome : Outcome) (hop : op ∈ w.ops)
    (hlate : op.kind = .close ∨ op.bumps ≠ w.bumps op.fd) : Kept s (w.retire op outcome) := by
  have hnobody : ∀ k, concerns w op.fd k op = false := by
    intro k
    rcases hlate with hlate | hlate <;> simp [concerns, hlate]
  have hview : viewOf (w.retire op outcome) = viewOf w := by
    rw [view_retire hop]
    simp only [hnobody, Bool.false_eq_true, if_false, Nat.sub_zero]
    exact stir_self (viewOf w) op.fd
  refine ⟨tagged_retire h.tagged op outcome, ?_, h.distinct, h.steady⟩
  rw [hview]
  exact h.owned

/-- An upstream in the pool ends with its read. -/
theorem Kept.lapses (h : Kept s w) (outcome : Outcome) (hop : Live w op .upRead)
    {addr : SocketAddr} (hslot : w.slots op.fd = .idle addr) :
    Kept s ({ w.retire op outcome with
      pool := ((w.retire op outcome).pool.remove addr op.fd).2 }.close ans op.fd) := by
  have htagged := tagged_retire h.tagged op outcome
  have hpooled : Tagged { w.retire op outcome with
      pool := ((w.retire op outcome).pool.remove addr op.fd).2 } :=
    ⟨htagged.gens, htagged.user, htagged.bumps, htagged.epochs⟩
  refine ⟨tagged_close hpooled ans op.fd, ?_, ?_, ?_⟩
  rotate_left
  · rw [close_intakes, close_admin, close_notify]
    exact h.distinct
  · rw [close_slots]
    exact h.steady.empty op.fd
  · obtain ⟨own, ho⟩ := h.owned
    have hfits := ho.fits op.fd
    rw [ho.pooled op.fd addr (congrArg roleOf hslot)] at hfits
    obtain ⟨pool, hremoved, hheld⟩ := removed_of_held hfits.2.2.2.1
    have hview : viewOf { w.retire op outcome with
        pool := ((w.retire op outcome).pool.remove addr op.fd).2 } =
        { viewOf (w.retire op outcome) with held := pool.held } := by
      show { viewOf (w.retire op outcome) with
        held := (w.pool.remove addr op.fd).2.held } = _
      rw [hremoved]
    rw [view_close hpooled, hview, view_live hop nofun]
    have hclosed : (View.place { (viewOf w).stir op.fd (fun k' =>
        flightOf w op.fd k' - if k' = .upRead then 1 else 0) with held := pool.held } op.fd
        .empty).shut op.fd = { ((viewOf w).place op.fd .empty).shut op.fd with held := pool.held } :=
      congrArg (fun v : View => { v with held := pool.held })
        (shut_stir ((viewOf w).place op.fd .empty) op.fd _)
    rw [hclosed]
    exact ⟨_, ho.retire hheld⟩

theorem slot_upstream (hrole : (viewOf w).role up = .upstream down) :
    w.slots up = .upstream down := by
  have hslot : roleOf (w.slots up) = .upstream down := hrole
  cases hs : w.slots up <;> rw [hs] at hslot <;> cases hslot
  rfl

theorem slot_idle {addr : SocketAddr} (hrole : (viewOf w).role up = .idle addr) :
    w.slots up = .idle addr := by
  have hslot : roleOf (w.slots up) = .idle addr := hrole
  cases hs : w.slots up <;> rw [hs] at hslot <;> cases hslot
  rfl

theorem slot_client {t : Ties} (hrole : (viewOf w).role fd = .client t) :
    ∃ c, w.slots fd = .client c ∧ tiesOf c = t := by
  have hslot : roleOf (w.slots fd) = .client t := hrole
  cases hs : w.slots fd with
  | client c =>
      rw [hs] at hslot
      exact ⟨c, rfl, by cases hslot; rfl⟩
  | _ => rw [hs] at hslot; cases hslot

/-- An upstream's operation that nobody hears of: only where a tunnel was cut off. -/
theorem Kept.unhears (h : Kept s w) (outcome : Outcome) (hop : Live w op k)
    (hk : k = .upRead ∨ k = .upWrite) (horphan : Orphan w op.fd)
    (hidle : k = .upRead → ∀ addr, w.slots op.fd ≠ .idle addr) : Kept s (w.retire op outcome) := by
  have hclose : k ≠ .close := by rcases hk with rfl | rfl <;> nofun
  have hflight := flight_live hop hclose
  refine ⟨tagged_retire h.tagged op outcome, ?_, h.distinct, h.steady⟩
  obtain ⟨own, ho⟩ := h.owned
  have howner := ho.up_owner hk hflight
  cases s with
  | false =>
      rw [view_live hop hclose]
      exact ⟨own, ho.unheard howner fun k' => Nat.sub_le ..⟩
  | true =>
      exfalso
      have hfits := ho.fits op.fd
      rcases howner with ⟨d, hd⟩ | ⟨addr, ha⟩ | hl
      · rw [hd] at hfits
        obtain ⟨-, -, hrole, t, ht, -⟩ := hfits
        obtain ⟨c, hc, -⟩ := slot_client ht
        exact horphan d (slot_upstream (hrole rfl)) c hc
      · rw [ha] at hfits
        obtain ⟨-, -, hrole, -, hnear⟩ := hfits
        rcases hk with rfl | rfl
        · exact hidle rfl addr (slot_idle (hrole rfl))
        · exact hflight ((hnear .upWrite).2 rfl)
      · rw [hl] at hfits
        cases hfits.1

/-- A slot that an upstream names but no connection has: only where a tunnel was cut off. -/
theorem Kept.clears (h : Kept s w) (hup : w.slots up = .upstream down)
    (hdown : ∀ c, w.slots down ≠ .client c) : Kept s (w.setSlot down .empty) := by
  refine ⟨tagged_setSlot h.tagged down _, ?_, h.distinct, h.steady.empty down⟩
  obtain ⟨own, ho⟩ := h.owned
  have hnobody : ∀ t, (viewOf w).role down ≠ .client t := fun t ht =>
    have ⟨c, hc, _⟩ := slot_client ht
    hdown c hc
  obtain ⟨hadmin, -, hclient, -⟩ := ho.named up down (congrArg roleOf hup)
  rw [view_setSlot]
  cases s with
  | false => exact ⟨own, ho.clear hnobody hadmin⟩
  | true =>
      obtain ⟨t, ht⟩ := hclient rfl
      exact absurd ht (hnobody t)

theorem Kept.forsakes (h : Kept s w) (hup : up ∈ w.borrowed) (horphan : Orphan w up) :
    Kept s (({ w with borrowed := w.borrowed.erase up }.setSlot up .empty).sysClose up) := by
  refine ⟨⟨h.tagged.gens, h.tagged.user, h.tagged.bumps, h.tagged.epochs⟩, ?_, h.distinct,
    h.steady.empty up⟩
  obtain ⟨own, ho⟩ := h.owned
  rw [view_given (Kept.lentQuiet h hup)]
  refine ⟨_, ho.forsake hup fun d t hd ht => ?_⟩
  obtain ⟨c, hc, -⟩ := slot_client ht
  exact horphan d (slot_upstream hd) c hc

end Elsewhere

section Fixtures

variable {s : Bool} {w : World} {op : Op} {k : Kind} {fd : Fd} {ans : Answers}

/-- Connections of the pool are closed one after the other. -/
theorem closeAll_pooled {gone : List (SocketAddr × Fd)} (htagged : Tagged w)
    (hslots : AllSteady w.slots)
    (hsound : Sound s { viewOf w with held := gone ++ w.pool.held })
    (hdistinct : (w.intakes.map (·.fd) ++ w.admin.toList ++ [w.notify]).Nodup) :
    Kept s (World.closeAll ans w (gone.map (·.2))) := by
  induction gone generalizing w with
  | nil => exact ⟨htagged, hsound, hdistinct, hslots⟩
  | cons e rest ih =>
      obtain ⟨own, ho⟩ := hsound
      have hpool : (w.close ans e.2).pool = w.pool := by
        unfold World.close World.countOff
        dsimp only
        split <;> split <;> rfl
      have hheld : List.Perm ((e :: rest) ++ w.pool.held) ((e.1, e.2) :: (rest ++ w.pool.held)) :=
        .refl _
      have hnext := ho.retire hheld
      refine ih (w := w.close ans e.2) (tagged_close htagged ans e.2) ?_ ?_
        (distinct_close hdistinct ans e.2)
      · rw [close_slots]
        exact hslots.empty e.2
      · rw [view_close htagged, hpool]
        exact ⟨_, hnext⟩

theorem Kept.flushes (h : Kept s w) {pool : Pool} {gone : List (SocketAddr × Fd)}
    (hheld : List.Perm w.pool.held (gone ++ pool.held)) :
    Kept s (World.closeAll ans { w with pool := pool } (gone.map (·.2))) := by
  obtain ⟨own, ho⟩ := h.owned
  have htagged : Tagged { w with pool := pool } :=
    ⟨h.tagged.gens, h.tagged.user, h.tagged.bumps, h.tagged.epochs⟩
  exact closeAll_pooled htagged h.steady ⟨own, ho.reheld hheld.symm⟩ h.distinct

/-- An operation on a listener, or on the helper's channel, is over. -/
theorem Kept.hears (h : Kept s w) (outcome : Outcome) (hop : Live w op k)
    (hk : k = .notify ∨ Kind.ofListener k) : Kept s (w.retire op outcome) := by
  have hclose : k ≠ .close := by
    rintro rfl
    rcases hk with hk | hk <;> cases hk
  refine ⟨tagged_retire h.tagged op outcome, ?_, h.distinct, h.steady⟩
  obtain ⟨own, ho⟩ := h.owned
  have hflight := flight_live hop hclose
  have howner : own op.fd = .fixture := by
    have hcarries := ho.carries (f := op.fd) hflight
    cases howner : own op.fd <;> rw [howner] at hcarries <;>
      rcases hk with rfl | hk <;> simp_all [Owner.carries, Kind.ofListener] <;>
      rcases hcarries with rfl | rfl <;> simp_all
  have hfits := ho.fits op.fd
  rw [howner] at hfits
  rw [view_live hop hclose]
  refine ⟨own, ho.stirFixture ((hfits.2.1 k hflight).elim (.inr ·.2) (.inl ·.2)) fun k' hk' => ?_⟩
  exact hfits.2.1 k' fun hzero => hk' (by rw [show flightOf w op.fd k' = 0 from hzero, Nat.zero_sub])

theorem Kept.arms (h : Kept s w) (hfd : (k = .notify ∧ fd = w.notify) ∨
    (Kind.ofListener k ∧ fd ∈ w.intakes.map (·.fd) ++ w.admin.toList)) :
    Kept s (w.submit k fd []) := by
  have hclose : k ≠ .close := by
    rintro rfl
    rcases hfd with ⟨hk, -⟩ | ⟨hk, -⟩ <;> cases hk
  refine ⟨tagged_submit h.tagged k fd [], ?_, h.distinct, h.steady⟩
  obtain ⟨own, ho⟩ := h.owned
  have howner : own fd = .fixture := by
    rcases hfd with ⟨-, rfl⟩ | ⟨-, hmem⟩
    · exact ho.notify
    · exact ho.listeners fd hmem
  have hfits := ho.fits fd
  rw [howner] at hfits
  rw [view_submit w hclose]
  refine ⟨own, ho.stirFixture (hfd.elim (.inr ·.2) (.inl ·.2)) fun k' hk' => ?_⟩
  by_cases hsame : k' = k
  · subst hsame
    exact hfd
  · exact hfits.2.1 k' fun hzero => hk' (by
      rw [show flightOf w fd k' = 0 from hzero, if_neg hsame])

/-- Listeners are closed one after the other. -/
theorem closeAll_listeners {fds : List Fd} (htagged : Tagged w) (hslots : AllSteady w.slots)
    (hnodup : fds.Nodup) (hnotify : w.notify ∉ fds)
    (hsound : Sound s { viewOf w with listeners := fds, draining := false })
    (hintakes : w.intakes = []) (hadmin : w.admin = none) (hdraining : w.drainDeadline.isSome = true) :
    Kept s (World.closeAll ans w fds) := by
  induction fds generalizing w with
  | nil =>
      obtain ⟨own, ho⟩ := hsound
      have hview : viewOf w = { viewOf w with listeners := [], draining := true } := by
        unfold viewOf
        rw [hintakes, hadmin, hdraining]
        rfl
      have hdrained : Sound s (viewOf w) := by
        rw [hview]
        exact ⟨own, ho.drain rfl⟩
      have hlone : (w.intakes.map (·.fd) ++ w.admin.toList ++ [w.notify]).Nodup := by
        rw [hintakes, hadmin]
        exact List.nodup_singleton _
      exact ⟨htagged, hdrained, hlone, hslots⟩
  | cons fd rest ih =>
      obtain ⟨own, ho⟩ := hsound
      rw [List.nodup_cons] at hnodup
      rw [List.mem_cons, not_or] at hnotify
      have hopen : (w.close ans fd).drainDeadline = w.drainDeadline := by
        unfold World.close World.countOff
        dsimp only
        split <;> split <;> rfl
      have hothers : ∀ x ∈ rest, x ∈ fd :: rest ∧ x ≠ fd := fun x hx =>
        ⟨List.mem_cons_of_mem _ hx, fun he => hnodup.1 (he ▸ hx)⟩
      have hnext := ho.unlisten List.mem_cons_self (Ne.symm hnotify.1) hothers
        fun x hx hne => (List.mem_cons.mp hx).resolve_left hne
      refine ih (w := w.close ans fd) (tagged_close htagged ans fd) ?_ hnodup.2 ?_ ?_ ?_ ?_ ?_
      · rw [close_slots]
        exact hslots.empty fd
      · rw [close_notify]
        exact hnotify.2
      · rw [view_close htagged]
        exact ⟨_, hnext⟩
      · rw [close_intakes]
        exact hintakes
      · rw [close_admin]
        exact hadmin
      · rw [hopen]
        exact hdraining

theorem Kept.unlistens (h : Kept s w) (deadline : Nat) (hserving : w.drainDeadline = none) :
    Kept s (World.closeAll ans
      { w with drainDeadline := some deadline, intakes := [], intakePartial := [], admin := none }
      (w.intakes.map (·.fd) ++ w.admin.toList)) := by
  obtain ⟨own, ho⟩ := h.owned
  have hdistinct := List.nodup_append.mp h.distinct
  have hview : viewOf w = { viewOf w with draining := false } := by
    unfold viewOf
    rw [hserving]
    rfl
  rw [hview] at ho
  refine closeAll_listeners ⟨h.tagged.gens, h.tagged.user, h.tagged.bumps, h.tagged.epochs⟩ h.steady
    hdistinct.1 ?_ ⟨own, ho⟩ rfl rfl rfl
  intro hmem
  exact hdistinct.2.2 _ hmem _ (List.mem_singleton.mpr rfl) rfl

end Fixtures

section Admin

variable {s : Bool} {w w' : World} {op : Op} {k : Kind} {fd : Fd} {a a' : AdminConn}
  {ans : Answers}

theorem role_admin (hslot : w.slots fd = .admin a) :
    (viewOf w).role fd = .admin a.reading a.writing := congrArg roleOf hslot

/-- What is in flight for an admin connection is as its flags say. -/
theorem Kept.ofAdmin (h : Kept s w) (hslot : w.slots fd = .admin a) (k : Kind) :
    flightOf w fd k = adminFlight a.reading a.writing k := by
  obtain ⟨own, ho⟩ := h.owned
  have hfits := ho.fits fd
  rw [ho.admin_owner (role_admin hslot)] at hfits
  obtain ⟨-, r, w', hrole, hflight⟩ := hfits
  rw [role_admin hslot] at hrole
  cases hrole
  exact hflight k

/-- An admin connection changes, with what it has in flight. -/
theorem Kept.administer (h : Kept s w) (hslot : w.slots fd = .admin a) (htagged : Tagged w')
    {flight : Kind → Nat} (hview : viewOf w' = (viewOf w).stir fd flight)
    (hslots : w'.slots = w.slots)
    (hdistinct : (w'.intakes.map (·.fd) ++ w'.admin.toList ++ [w'.notify]).Nodup)
    (hflight : ∀ k, flight k = adminFlight a'.reading a'.writing k) :
    Kept s (w'.setSlot fd (.admin a')) := by
  refine ⟨tagged_setSlot htagged fd _, ?_, hdistinct, ?_⟩
  · obtain ⟨own, ho⟩ := h.owned
    rw [view_setSlot, hview]
    exact ⟨own, ho.stirAdmin (role_admin hslot) hflight⟩
  · rw [setSlot_slots, hslots]
    exact h.steady.update fd fun _ he => by cases he

theorem Kept.adminSame (h : Kept s w) (hslot : w.slots fd = .admin a)
    (hflags : a'.reading = a.reading ∧ a'.writing = a.writing) :
    Kept s (w.setSlot fd (.admin a')) := by
  refine Kept.administer h hslot h.tagged (stir_self (viewOf w) fd).symm rfl h.distinct fun k => ?_
  rw [hflags.1, hflags.2]
  exact Kept.ofAdmin h hslot k

theorem Kept.adminSubmits (h : Kept s w) (hslot : w.slots fd = .admin a) (hk : k ≠ .close)
    (payload : Bytes) (hflags : ∀ k', adminFlight a'.reading a'.writing k' =
      adminFlight a.reading a.writing k' + if k' = k then 1 else 0) :
    Kept s ((w.submit k fd payload).setSlot fd (.admin a')) := by
  refine Kept.administer h hslot (tagged_submit h.tagged k fd payload)
    (view_submit w hk fd payload) rfl h.distinct fun k' => ?_
  rw [hflags k', ← Kept.ofAdmin h hslot k']

theorem Kept.adminRetires (h : Kept s w) (hop : Live w op k) (hk : k ≠ .close) (outcome : Outcome)
    (hslot : w.slots op.fd = .admin a) (hflags : ∀ k',
      adminFlight a'.reading a'.writing k' =
        adminFlight a.reading a.writing k' - if k' = k then 1 else 0) :
    Kept s ((w.retire op outcome).setSlot op.fd (.admin a')) := by
  refine Kept.administer h hslot (tagged_retire h.tagged op outcome) (view_live hop hk outcome) rfl
    h.distinct fun k' => ?_
  rw [hflags k', ← Kept.ofAdmin h hslot k']

/-- An admin connection leaves, whatever its slot and its flights have come to say. -/
theorem Kept.adminLeaves (h : Kept s w) (hslot : w.slots fd = .admin a) (htagged : Tagged w')
    (hview : ((viewOf w').place fd .empty).shut fd = ((viewOf w).place fd .empty).shut fd)
    (hslots : Function.update w'.slots fd .empty = Function.update w.slots fd .empty)
    (hdistinct : (w'.intakes.map (·.fd) ++ w'.admin.toList ++ [w'.notify]).Nodup) :
    Kept s (w'.close ans fd) := by
  refine ⟨tagged_close htagged ans fd, ?_, distinct_close hdistinct ans fd, ?_⟩
  · obtain ⟨own, ho⟩ := h.owned
    rw [view_close htagged, hview]
    exact ⟨_, ho.quitAdmin (role_admin hslot)⟩
  · rw [close_slots, hslots]
    exact h.steady.empty fd

theorem Kept.adminBegins (h : Kept s w) (hfree : w.opened fd = false)
    (hserving : w.drainDeadline = none) :
    Kept s (((w.opening fd).bumpGeneration fd).setSlot fd (.admin {})) := by
  have htagged := tagged_bump (tagged_opening h.tagged (h.free hfree)) fd
  have hdraining : (viewOf w).draining = false := by
    show w.drainDeadline.isSome = false
    rw [hserving]
    rfl
  refine ⟨tagged_setSlot htagged fd _, ?_, h.distinct, ?_⟩
  · obtain ⟨own, ho⟩ := h.owned
    rw [view_setSlot, view_begun h hfree]
    exact ⟨_, ho.beginAdmin hdraining hfree⟩
  · exact h.steady.update fd fun _ he => by cases he

end Admin

section Assembly

variable {env : Outside} {calm : Bool} {s : Bool} {w w' : World}

theorem Kept.beside (h : Kept s w) (hevent : Aside w w') : Kept s w' := by
  cases hevent with
  | dropped outcome hop hlate => exact Kept.drops h outcome hop hlate
  | turnedAway hfree => exact h.glimpse hfree
  | lapsed ans outcome hop hslot => exact Kept.lapses h outcome hop hslot
  | unheard outcome hop hk horphan hidle => exact Kept.unhears h outcome hop hk horphan hidle
  | cleared hup hdown => exact Kept.clears h hup hdown
  | forsaken hup horphan => exact Kept.forsakes h hup horphan
  | flushed ans hheld => exact Kept.flushes h hheld
  | heard outcome hop hk => exact Kept.hears h outcome hop hk
  | armed hfd => exact Kept.arms h hfd
  | broke | stopped | expired | partly | sent =>
      exact h.still ⟨rfl, rfl, rfl, rfl, rfl, rfl, rfl, rfl, rfl, rfl, rfl, rfl⟩
  | unlistened ans deadline hserving => exact Kept.unlistens h deadline hserving
  | adminBegun hfree hserving => exact Kept.adminBegins h hfree hserving
  | adminDropped hslot => exact Kept.adminSame h hslot ⟨rfl, rfl⟩
  | adminRead hslot hquiet =>
      refine Kept.adminSubmits h hslot (by decide) [] fun k => ?_
      cases k <;> simp [adminFlight, hquiet]
  | @adminWritten fd a hslot hquiet =>
      refine Kept.adminSubmits h hslot (by decide) a.outbox fun k => ?_
      cases k <;> simp [adminFlight, hquiet]
  | @adminHeard op a a' outcome hop hslot hflags =>
      refine Kept.adminRetires h hop (by decide) outcome hslot fun k => ?_
      rw [hflags.1, hflags.2]
      cases k <;> simp [adminFlight, Bool.toNat_le]
  | adminWrote outcome hop hslot =>
      refine Kept.adminRetires h hop (by decide) outcome hslot fun k => ?_
      cases k <;> simp [adminFlight, Bool.toNat_le]
  | adminLeft ans outcome hop hk hslot =>
      refine Kept.adminLeaves h hslot (tagged_retire h.tagged _ outcome) ?_ rfl h.distinct
      rw [view_live hop (by rcases hk with rfl | rfl <;> decide)]
      exact shut_stir ((viewOf w).place _ .empty) _ _
  | @adminHungUp op a ans outcome hop hslot =>
      have htagged := tagged_retire h.tagged op outcome
      refine Kept.adminLeaves h hslot (tagged_setSlot htagged op.fd .empty) ?_
        (Function.update_idem ..) h.distinct
      rw [view_setSlot, view_live hop (by decide)]
      have htwice : (View.place (View.place ((viewOf w).stir op.fd fun k' =>
          flightOf w op.fd k' - if k' = .adminRead then 1 else 0) op.fd .empty) op.fd .empty) =
          ((viewOf w).place op.fd .empty).stir op.fd fun k' =>
            flightOf w op.fd k' - if k' = .adminRead then 1 else 0 := by
        simp [View.place, View.stir]
      rw [show roleOf .empty = .empty from rfl, htwice]
      exact shut_stir ((viewOf w).place op.fd .empty) op.fd _
  | adminClosed ans hslot => exact Kept.adminLeaves h hslot h.tagged rfl rfl h.distinct
  | adminSpared hslot =>
      have hstill : Still w { w with drainInflight := w.drainInflight + 1 } :=
        ⟨rfl, rfl, rfl, rfl, rfl, rfl, rfl, rfl, rfl, rfl, rfl, rfl⟩
      exact Kept.adminSame (h.still hstill) hslot ⟨rfl, rfl⟩

/-- Whatever happens to a core keeps each descriptor with its owner. -/
theorem Kept.event (h : Kept s w) (hevent : Event env calm s w w') : Kept s w' := by
  cases hevent with
  | moved hmove => exact h.moved hmove
  | readDown ans outcome hop hslot hreading hgiven =>
      exact Kept.readFrom h ans outcome hop hslot hreading hgiven
  | wroteDown outcome hop hslot hwriting => exact Kept.wroteTo h outcome hop hslot hwriting
  | readUp outcome hop _ hslot hattached hown hreading =>
      exact Kept.readFromUp h outcome hop hslot hattached hown hreading
  | wroteUp outcome hop _ hslot hattached hown hwriting =>
      exact Kept.wroteToUp h outcome hop hslot hattached hown hwriting
  | connected hmem hup hslot hattached hlent =>
      exact Kept.connects h hmem hup hslot hattached hlent
  | missed hmem hup hslot hattached hlent => exact Kept.misses h hmem hup hslot hattached hlent
  | started ans tls hfree hserving => exact Kept.starts h ans tls hfree hserving
  | spared hslot => exact Kept.spares h hslot
  | cut ans hweak hslot _ hphase =>
      subst hweak
      exact Kept.cuts h hslot hphase
  | published | elapsed =>
      exact h.still ⟨rfl, rfl, rfl, rfl, rfl, rfl, rfl, rfl, rfl, rfl, rfl, rfl⟩
  | aside hbeside => exact Kept.beside h hbeside

theorem Kept.happened (h : Kept s w) (hrun : Happens env calm s w w') : Kept s w' := by
  induction hrun with
  | refl => exact h
  | tail _ hevent ih => exact Kept.event ih hevent

end Assembly

end Ramjet.Engine.Worker.Arrivals
