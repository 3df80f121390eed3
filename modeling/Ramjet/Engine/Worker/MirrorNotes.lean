/- digest: How each connection stands to what was noted of it, and what a turn adds to that. -/

import Ramjet.Engine.Worker.MirrorBooks

set_option autoImplicit false
set_option relaxedAutoImplicit false

namespace Ramjet.Engine.Worker.MirrorNotes

open Ramjet.Base.Octets
open Ramjet.Base.Net
open Ramjet.Base.Machine
open Ramjet.Engine.Codec.BodyFraming
open Ramjet.Engine.IdlePool
open Ramjet.Engine.Worker.Connection
open Ramjet.Engine.Worker.Core
open Ramjet.Engine.Worker.Requests
open Ramjet.Engine.Worker.Handlers
open Ramjet.Engine.Worker.Loop
open Ramjet.Engine.Worker.Keeping
open Ramjet.Engine.Worker.Alterations
open Ramjet.Engine.Worker.Lanes
open Ramjet.Engine.Worker.Effects
open Ramjet.Engine.Worker.Continuity
open Ramjet.Engine.Worker.Mirroring
open Ramjet.Engine.Worker.MirrorBooks

section Standing

/-- A request whose copy is pending: it declares a length, some of it is still to come, and the
copy has what came, unless that was too much. -/
structure Pending (s : Watch) (config : Config) (r : Request) (c : Conn) (copy : MirrorCopy) :
    Prop where
  sampled : ∃ p ∈ s.sampled, p.request = r ∧ p.plan.planned = true ∧ p.plan.settled = false
  short : r ∉ s.whole
  lane : config.mirror = true
  body : ∃ e left n, c.book.current = some e ∧ e.framing = .length n ∧
    c.requestBody = .length left ∧ 0 < left ∧ e.body.length + left = n ∧
    (copy.tooLarge = false → copy.body = e.body ∧ copy.body.length ≤ config.mirrorMaxBody)

/-- How a connection stands to what was noted of it: what was noted is of a request it has begun,
and it keeps a copy exactly of what is planned and still to be counted. -/
structure Stands (s : Watch) (config : Config) (fd : Fd) (k : Nat) (c : Conn) : Prop where
  idle : Idle c
  begun : ∀ r, s.Knows r → r.fd = fd → r.connection = k → r.number < c.book.exchanges.length
  waiting : ∀ p ∈ s.sampled, p.request = ⟨fd, k, c.book.past.length⟩ → p.plan.planned = true →
    p.plan.settled = false → p.request ∉ s.whole → c.mirror ≠ none
  pending : ∀ copy, c.mirror = some copy → Pending s config ⟨fd, k, c.book.past.length⟩ c copy

variable {s : Watch} {config : Config} {fd : Fd} {k : Nat} {c c₁ c' : Conn}
  {e : Option Exchange}

theorem exchanges_length (b : Book) :
    b.exchanges.length = b.past.length + if b.current.isSome then 1 else 0 := by
  unfold Book.exchanges
  cases b.current <;> simp

theorem current_of_lt {b : Book} (h : b.past.length < b.exchanges.length) :
    b.current.isSome = true := by
  rw [exchanges_length] at h
  by_contra hnone
  rw [if_neg hnone] at h
  omega

theorem whole_same {e e' : Exchange} (h : SameBody e e') :
    Exchange.whole e' = Exchange.whole e := by
  unfold Exchange.whole
  rw [h.1, h.2]

/-- What lasts of a connection's requests is enough to stand as before. -/
theorem Stands.onward (h : Stands s config fd k c) (honward : Onward c c') :
    Stands s config fd k c' := by
  refine ⟨honward.idle h.idle, fun r hknown hfd hk => ?_, fun p hp hr hplanned hopen hshort => ?_,
    fun copy hcopy => ?_⟩
  · rw [honward.length]
    exact h.begun r hknown hfd hk
  · have hbegun := h.begun p.request (.inl (List.mem_map_of_mem hp)) (by rw [hr]) (by rw [hr])
    have hpast := honward.past
    rw [hr] at hbegun
    have hsame : c'.book.past.length = c.book.past.length := by
      have hlength := exchanges_length c.book
      dsimp only at hbegun
      split at hlength <;> omega
    rw [hsame] at hbegun hr
    rcases honward.copy with ⟨hmirror, -⟩ | ⟨-, hgrown⟩
    · rw [hmirror]
      exact h.waiting p hp hr hplanned hopen hshort
    · have hlt := hgrown (current_of_lt hbegun)
      omega
  · rcases honward.copy with ⟨hmirror, hbody, hsame⟩ | ⟨hnone, -⟩
    · obtain ⟨hsampled, hshort, hlane, e, left, n, he, hframing, hleft, hpos, hsum, hcopied⟩ :=
        h.pending copy (hmirror ▸ hcopy)
      obtain ⟨e', he', hsameBody⟩ := honward.keeps _ e ((exchanges_current _).trans he)
      rw [← hsame, exchanges_current] at he'
      rw [hsame]
      refine ⟨hsampled, hshort, hlane, e', left, n, he', hsameBody.1.trans hframing,
        hbody.trans hleft, hpos, ?_, ?_⟩
      · rw [hsameBody.2]
        exact hsum
      · rw [hsameBody.2]
        exact hcopied
    · rw [hnone] at hcopy
      cases hcopy

/-- How many connections have begun on each descriptor is nothing to how one stands. -/
theorem Stands.counted {s' : Watch} (h : Stands s config fd k c)
    (hsampled : s'.sampled = s.sampled) (hwhole : s'.whole = s.whole) :
    Stands s' config fd k c := by
  refine ⟨h.idle, ?_, ?_, fun copy hcopy => ?_⟩
  · unfold Watch.Knows
    rw [hsampled, hwhole]
    exact h.begun
  · rw [hsampled, hwhole]
    exact h.waiting
  · obtain ⟨hplanned, hshort, hlane, hbody⟩ := h.pending copy hcopy
    exact ⟨hsampled ▸ hplanned, hwhole ▸ hshort, hlane, hbody⟩

/-- What is noted of another connection's request is nothing to this one. -/
theorem Stands.elsewhere (h : Stands s config fd k c) {r : Request} (hr : r.fd ≠ fd)
    (plan : Option Plan) (e : Option Exchange) (counted : List Fate) :
    Stands (s.note r plan e counted) config fd k c := by
  have hsampled : ∀ p ∈ (s.note r plan e counted).sampled, p.request.fd = fd → p ∈ s.sampled := by
    intro p hp hfd
    rcases List.mem_append.mp hp with hold | hnew
    · exact hold
    · cases plan with
      | none => cases hnew
      | some q =>
          rw [Option.map_some, Option.toList_some, List.mem_singleton] at hnew
          rw [hnew] at hfd
          exact absurd hfd hr
  have hwhole : ∀ r' : Request, r'.fd = fd →
      (r' ∈ (s.note r plan e counted).whole ↔ r' ∈ s.whole) := by
    intro r' hfd
    have hne : r' ≠ r := fun heq => hr (heq ▸ hfd)
    unfold Watch.note
    dsimp only
    split
    · simp [hne]
    · rfl
  refine ⟨h.idle, fun r' hknown hfd hk => h.begun r' ?_ hfd hk,
    fun p hp hpr hplanned hopen hshort => ?_, fun copy hcopy => ?_⟩
  · rcases hknown with hmem | hmem
    · obtain ⟨p, hp, rfl⟩ := List.mem_map.mp hmem
      exact .inl (List.mem_map_of_mem (hsampled p hp hfd))
    · exact .inr ((hwhole r' hfd).mp hmem)
  · have hfd : p.request.fd = fd := by rw [hpr]
    exact h.waiting p (hsampled p hp hfd) hpr hplanned hopen fun hmem =>
      hshort ((hwhole _ hfd).mpr hmem)
  · obtain ⟨⟨p, hp, hrest⟩, hshort, hlane, hbody⟩ := h.pending copy hcopy
    exact ⟨⟨p, List.mem_append_left _ hp, hrest⟩, fun hmem => hshort ((hwhole _ rfl).mp hmem),
      hlane, hbody⟩

/-- Nothing new is noted of a request but, perhaps, that its body is whole. -/
theorem Stands.still (h : Stands s config fd k c)
    (hwhole : e.any Exchange.whole = true → c.mirror = none ∧ c.book.current.isSome = true) :
    Stands (s.note ⟨fd, k, c.book.past.length⟩ none e []) config fd k c := by
  have hkept : ∀ r', r' ∈ s.whole →
      r' ∈ (s.note ⟨fd, k, c.book.past.length⟩ none e []).whole := by
    intro r' hr'
    unfold Watch.note
    dsimp only
    split
    · exact List.mem_append_left _ hr'
    · exact hr'
  have hsampled : (s.note ⟨fd, k, c.book.past.length⟩ none e []).sampled = s.sampled :=
    List.append_nil _
  refine ⟨h.idle, fun r hknown hfd hk => ?_, fun p hp hr hplanned hopen hshort => ?_,
    fun copy hcopy => ?_⟩
  · unfold Watch.Knows at hknown
    rw [hsampled] at hknown
    rcases hknown with hmem | hmem
    · exact h.begun r (.inl hmem) hfd hk
    · unfold Watch.note at hmem
      dsimp only at hmem
      split at hmem
      · rename_i hall
        rcases List.mem_append.mp hmem with hold | hnew
        · exact h.begun r (.inr hold) hfd hk
        · rw [List.mem_singleton.mp hnew, exchanges_length, if_pos (hwhole hall).2]
          exact Nat.lt_succ_self _
      · exact h.begun r (.inr hmem) hfd hk
  · rw [hsampled] at hp
    exact h.waiting p hp hr hplanned hopen fun hmem => hshort (hkept _ hmem)
  · have hshort : ¬ e.any Exchange.whole = true := by
      intro hall
      rw [(hwhole hall).1] at hcopy
      cases hcopy
    have hsame : (s.note ⟨fd, k, c.book.past.length⟩ none e []).whole = s.whole := by
      unfold Watch.note
      dsimp only
      rw [if_neg hshort]
    obtain ⟨hplanned, hout, hlane, hbody⟩ := h.pending copy hcopy
    exact ⟨by rwa [hsampled], by rwa [hsame], hlane, hbody⟩

/-- And the counts are due as before. -/
theorem booked_still {l : Lane} (hb : Booked l s) (h : Stands s config fd k c)
    (hwhole : e.any Exchange.whole = true → c.mirror = none) :
    Booked l (s.note ⟨fd, k, c.book.past.length⟩ none e []) := by
  have hplan : ¬ (none : Option Plan).isSome = true := Bool.false_ne_true
  have hfate : ¬ (none : Option Fate).isSome = true := Bool.false_ne_true
  refine hb.note (fun h => absurd h hplan) (fun h => absurd h hfate) (fun p hp hr => ?_)
    (fun h => absurd h hfate) fun _ h => absurd h (Option.not_mem_none _)
  have hold : p ∈ s.sampled := by simpa [Watch.note] using hp
  have hcounted : (s.note ⟨fd, k, c.book.past.length⟩ none e []).counted = s.counted :=
    List.append_nil _
  rw [Option.toList_none, hcounted, ← hr, hb.due p hold]
  unfold Due Watch.note
  dsimp only
  split
  · rename_i hall
    refine and_congr_right fun hplanned => ?_
    have hdone : p.plan.settled = false → p.request ∈ s.whole := by
      intro hopen
      by_contra hshort
      exact h.waiting p hold hr hplanned hopen hshort (hwhole hall)
    cases hsettled : p.plan.settled with
    | true => simp
    | false => simp [hdone hsettled]
  · rfl

theorem Pending.unfinished {r : Request} {copy : MirrorCopy} (h : Pending s config r c copy)
    {e : Exchange} (he : c.book.current = some e) : Exchange.whole e = false := by
  obtain ⟨e₁, left, n, he₁, hframing, -, hpos, hsum, -⟩ := h.body
  rw [he, Option.some.injEq] at he₁
  unfold Exchange.whole
  rw [he₁, hframing]
  simp only [beq_eq_false_iff_ne]
  omega

/-- What is whole at the end of a step was so before what only follows its deed. -/
theorem whole_before (honward : Onward c₁ c') {i : Nat}
    (hall : (c'.book.exchanges[i]?).any Exchange.whole = true) :
    ∃ e₁, c₁.book.exchanges[i]? = some e₁ ∧ Exchange.whole e₁ = true := by
  obtain ⟨e', he', hwhole⟩ := (Option.any_eq_true _ _).mp hall
  obtain ⟨hi, -⟩ := List.getElem?_eq_some_iff.mp he'
  rw [honward.length] at hi
  obtain ⟨e₂, he₂, hsame⟩ := honward.keeps i _ (List.getElem?_eq_getElem hi)
  rw [he', Option.some.injEq] at he₂
  exact ⟨_, List.getElem?_eq_getElem hi, by rw [← whole_same hsame, ← he₂]; exact hwhole⟩

/-- A turn that does nothing about a copy. -/
theorem nothing_noted {l : Lane} (hb : Booked l s) (h : Stands s config fd k c)
    (honward : Onward c c') :
    Booked l (s.note ⟨fd, k, c.book.past.length⟩ none c'.book.exchanges[c.book.past.length]? []) ∧
      Stands (s.note ⟨fd, k, c.book.past.length⟩ none c'.book.exchanges[c.book.past.length]? [])
        config fd k c' := by
  have hwhole : (c'.book.exchanges[c.book.past.length]?).any Exchange.whole = true →
      c.mirror = none ∧ c.book.current.isSome = true := by
    intro hall
    obtain ⟨e, he, hdone⟩ := whole_before honward hall
    rw [exchanges_current] at he
    refine ⟨?_, by rw [he]; rfl⟩
    cases hmirror : c.mirror with
    | none => rfl
    | some copy =>
        rw [(h.pending copy hmirror).unfinished he] at hdone
        cases hdone
  exact ⟨booked_still hb h fun hall => (hwhole hall).1, (h.still hwhole).onward honward⟩

variable {env : Outside} {ans : Answers} {w : World} {l : Lane}

/-- Bytes of a body are taken of which no copy is kept. -/
theorem Stands.took (h : Stands s config fd k c) (hnone : c.mirror = none) {bytes : Bytes}
    (hbook : c₁.book = c.book.takeBody bytes) (hidle : Idle c₁) (hmirror : c₁.mirror = none) :
    Stands s config fd k c₁ := by
  have hpast : c₁.book.past = c.book.past := by
    rw [hbook]
    rfl
  have hlength : c₁.book.exchanges.length = c.book.exchanges.length := by
    rw [exchanges_length, exchanges_length, hbook]
    simp [Book.takeBody]
  refine ⟨hidle, fun r hknown hfd hk => ?_, fun p hp hr hplanned hopen hshort => ?_,
    fun copy hcopy => ?_⟩
  · rw [hlength]
    exact h.begun r hknown hfd hk
  · rw [hpast] at hr
    exact absurd hnone (h.waiting p hp hr hplanned hopen hshort)
  · rw [hmirror] at hcopy
    cases hcopy

/-- A copy that has all there was of a body has what comes as well, unless it becomes too large. -/
theorem fed_body {most : Nat} {copy : MirrorCopy} {body : Bytes}
    (h : copy.tooLarge = false → copy.body = body ∧ copy.body.length ≤ most) (bytes : Bytes) :
    (fed most copy bytes).tooLarge = false →
      (fed most copy bytes).body = body ++ bytes ∧ (fed most copy bytes).body.length ≤ most := by
  unfold fed
  split
  · rename_i hlarge
    intro hsmall
    rw [hlarge] at hsmall
    cases hsmall
  · rename_i hsmall
    obtain ⟨hbody, -⟩ := h (Bool.not_eq_true _ |>.mp hsmall)
    split
    · intro hsmall
      cases hsmall
    · rename_i hroom
      intro _
      rw [List.length_append, hbody]
      exact ⟨rfl, by rw [← hbody]; omega⟩

/-- Some of a body, but not the last of it, goes into the copy. -/
theorem Stands.fed (h : Stands s config fd k c) {copy : MirrorCopy} (hcopy : c.mirror = some copy)
    {n : Nat} {body : Body} (htake : c.requestBody.take c.inbox = .ok (n, false, body))
    (hbook : c₁.book = c.book.takeBody (c.inbox.take n)) (hbody : c₁.requestBody = body)
    (hidle : Idle c₁)
    (hmirror : c₁.mirror = some (fed config.mirrorMaxBody copy (c.inbox.take n))) :
    Stands s config fd k c₁ := by
  have hpast : c₁.book.past = c.book.past := by
    rw [hbook]
    rfl
  have hlength : c₁.book.exchanges.length = c.book.exchanges.length := by
    rw [exchanges_length, exchanges_length, hbook]
    simp [Book.takeBody]
  refine ⟨hidle, fun r hknown hfd hk => ?_, fun p hp hr _ _ _ => ?_, fun copy' hcopy' => ?_⟩
  · rw [hlength]
    exact h.begun r hknown hfd hk
  · rw [hmirror]
    exact Option.some_ne_none _
  · obtain ⟨hsampled, hshort, hlane, e, left, total, he, hframing, hleft, hpos, hsum, hcopied⟩ :=
      h.pending copy hcopy
    rw [hmirror, Option.some.injEq] at hcopy'
    rw [hleft] at htake
    simp only [Body.take, Except.ok.injEq, Prod.mk.injEq, beq_eq_false_iff_ne] at htake
    obtain ⟨rfl, hmore, rfl⟩ := htake
    rw [hpast]
    refine ⟨hsampled, hshort, hlane,
      { e with body := e.body ++ c.inbox.take (min left c.inbox.length) },
      left - min left c.inbox.length, total, ?_, hframing, hbody, by omega, ?_, ?_⟩
    · rw [hbook]
      show c.book.current.map _ = _
      rw [he]
      rfl
    · rw [List.length_append, List.length_take]
      omega
    · rw [← hcopy']
      exact fed_body hcopied _

/-- What a copy whose body is complete is counted as. -/
def handed (copy : MirrorCopy) (e : Option Exchange) : Fate :=
  if copy.tooLarge then .skipped else .enqueued copy e

theorem count_handed (hlane : l.config.mirror = true) (copy : MirrorCopy) (e : Option Exchange) :
    l.hand copy = Lane.count l (some (handed copy e)) := by
  unfold Lane.hand handed
  rw [hlane]
  simp only [Bool.not_true, Bool.false_eq_true, if_false]
  split <;> rfl

theorem fates_handed (hlane : l.config.mirror = true) (copy : MirrorCopy) (e : Option Exchange) :
    fates l (l.hand copy) e = [handed copy e] := by
  rw [count_handed hlane copy e]
  refine fates_count l (some (handed copy e)) e fun copy₁ e₁ heq => ?_
  rw [Option.some.injEq] at heq
  unfold handed at heq
  split at heq
  · cases heq
  · cases heq
    rfl

theorem knows_note {r : Request} {plan : Option Plan} {counted : List Fate} {r' : Request}
    (h : (s.note r plan e counted).Knows r') : s.Knows r' ∨ r' = r := by
  rcases h with hmem | hmem
  · obtain ⟨p, hp, rfl⟩ := List.mem_map.mp hmem
    rcases List.mem_append.mp hp with hold | hnew
    · exact .inl (.inl (List.mem_map_of_mem hold))
    · cases plan with
      | none => cases hnew
      | some q =>
          rw [Option.map_some, Option.toList_some, List.mem_singleton] at hnew
          rw [hnew]
          exact .inr rfl
  · unfold Watch.note at hmem
    dsimp only at hmem
    split at hmem
    · rcases List.mem_append.mp hmem with hold | hnew
      · exact .inl (.inr hold)
      · exact .inr (List.mem_singleton.mp hnew)
    · exact .inl (.inr hmem)

theorem whole_note {r : Request} {plan : Option Plan} {counted : List Fate}
    (h : e.any Exchange.whole = true) : (s.note r plan e counted).whole = s.whole ++ [r] :=
  if_pos h

/-- Once a request's body is whole its connection needs no copy. -/
theorem stands_done {plan : Option Plan} {counted : List Fate} (hidle : Idle c)
    (hold : ∀ r, s.Knows r → r.fd = fd → r.connection = k → r.number < c.book.exchanges.length)
    (hbegun : c.book.past.length < c.book.exchanges.length) (hnone : c.mirror = none)
    (hwhole : e.any Exchange.whole = true) :
    Stands (s.note ⟨fd, k, c.book.past.length⟩ plan e counted) config fd k c := by
  refine ⟨hidle, fun r hknown hfd hk => ?_, fun p hp hr _ _ hshort => ?_, fun copy hcopy => ?_⟩
  · rcases knows_note hknown with hknown | rfl
    · exact hold r hknown hfd hk
    · exact hbegun
  · rw [whole_note hwhole, hr] at hshort
    exact absurd (List.mem_append_right _ (List.mem_singleton_self _)) hshort
  · rw [hnone] at hcopy
    cases hcopy

/-- The last of a body goes into the copy, which is handed over or skipped. -/
theorem handed_noted (hb : Booked (lane w) s) (h : Stands s w.config fd k c) {copy : MirrorCopy}
    (hcopy : c.mirror = some copy) {n : Nat} {body : Body}
    (htake : c.requestBody.take c.inbox = .ok (n, true, body))
    (hbook : c₁.book = c.book.takeBody (c.inbox.take n)) (hidle : Idle c₁)
    (hmirror : c₁.mirror = none) (honward : Onward c₁ c') :
    let e := c'.book.exchanges[c.book.past.length]?
    let l := (lane w).hand (fed w.config.mirrorMaxBody copy (c.inbox.take n))
    Booked l (s.note ⟨fd, k, c.book.past.length⟩ none e (fates (lane w) l e)) ∧
      Stands (s.note ⟨fd, k, c.book.past.length⟩ none e (fates (lane w) l e)) w.config fd k c' := by
  obtain ⟨⟨p₀, hp₀, hr₀, hplanned, hopen⟩, hshort, hlane, e₀, left, total, he₀, hframing, hleft,
    hpos, hsum, hcopied⟩ := h.pending copy hcopy
  have hpast : c₁.book.past = c.book.past := by
    rw [hbook]
    rfl
  have hcurrent : c₁.book.current = some { e₀ with body := e₀.body ++ c.inbox.take n } := by
    rw [hbook]
    show c.book.current.map _ = _
    rw [he₀]
    rfl
  obtain ⟨e', he', hsame⟩ := honward.keeps _ _ ((exchanges_current c₁.book).trans hcurrent)
  rw [hpast] at he'
  have hall : (some e').any Exchange.whole = true := by
    rw [hleft] at htake
    simp only [Body.take, Except.ok.injEq, Prod.mk.injEq, beq_iff_eq] at htake
    obtain ⟨rfl, hnomore, -⟩ := htake
    rw [Option.any_some, whole_same hsame]
    unfold Exchange.whole
    simp only [hframing, beq_iff_eq, List.length_append, List.length_take]
    omega
  have hcount := count_handed (l := lane w) hlane (fed w.config.mirrorMaxBody copy (c.inbox.take n))
    (some e')
  dsimp only
  rw [he', fates_handed (l := lane w) hlane]
  generalize hfed : fed w.config.mirrorMaxBody copy (c.inbox.take n) = copy' at hcount ⊢
  have hfate : [handed copy' (some e')] = (some (handed copy' (some e'))).toList := rfl
  have hout : (⟨fd, k, c.book.past.length⟩ : Request) ∉ s.counted.map (·.1) := by
    rw [← hr₀, hb.due p₀ hp₀]
    rintro ⟨-, hsettled | hwhole⟩
    · rw [hopen] at hsettled
      cases hsettled
    · exact hshort (hr₀ ▸ hwhole)
  refine ⟨?_, ?_⟩
  · rw [hcount, hfate]
    refine hb.note (fun hplan => absurd hplan Bool.false_ne_true) (fun _ => hout)
      (fun p hp hr => ?_) (fun _ => ?_) fun fate hfate => ?_
    · have hold : p ∈ s.sampled := by simpa [Watch.note] using hp
      have heq : p = p₀ := List.inj_on_of_nodup_map hb.distinct hold hp₀ (hr.trans hr₀.symm)
      have hdone : Due (s.note ⟨fd, k, c.book.past.length⟩ none (some e')
          (some (handed copy' (some e'))).toList) p := by
        refine ⟨by rw [heq]; exact hplanned, .inr ?_⟩
        rw [hr]
        rw [whole_note hall]
        exact List.mem_append_right _ (List.mem_singleton_self _)
      refine iff_of_true ?_ hdone
      simp [Watch.note]
    · simp only [Watch.note, List.map_append, List.mem_append]
      exact .inl (List.mem_map.mpr ⟨p₀, hp₀, hr₀⟩)
    · rw [Option.mem_some_iff] at hfate
      rw [← hfate]
      unfold handed
      split
      · trivial
      · rename_i hsmall
        have hbodies := fed_body hcopied (c.inbox.take n)
        rw [hfed] at hbodies
        obtain ⟨hbody, hfits⟩ := hbodies (Bool.not_eq_true _ |>.mp hsmall)
        exact ⟨e', rfl, hbody.trans hsame.2.symm, hall, hfits⟩
  · have hlength : c₁.book.exchanges.length = c.book.exchanges.length := by
      rw [exchanges_length, exchanges_length, hcurrent, hpast, he₀]
      rfl
    rw [← hpast]
    refine (stands_done hidle (fun r hknown hfd hk => ?_) ?_ hmirror hall).onward honward
    · rw [hlength]
      exact h.begun r hknown hfd hk
    · rw [exchanges_length, hcurrent]
      exact Nat.lt_succ_self _

/-- A request begins, and its copy is planned. -/
theorem planned_noted {l : Lane} (hb : Booked (lane w) s) (h : Stands s w.config fd k c)
    {e₁ : Exchange} {plan : Option Plan} (hphase : c.phase = .head) (hidle : Idle c₁)
    (hpast : c.book.past.length ≤ c₁.book.past.length)
    (hat : c₁.book.exchanges[c.book.past.length]? = some e₁) (hbody : e₁.body = [])
    (hplanned : Planned (lane w) e₁.framing plan l c₁.mirror)
    (hcopy : c₁.mirror ≠ none → ∃ n, e₁.framing = .length n ∧ 0 < n ∧
      c₁.requestBody = .length n ∧ c₁.book.past.length = c.book.past.length)
    (honward : Onward c₁ c') :
    let e := c'.book.exchanges[c.book.past.length]?
    Booked l (s.note ⟨fd, k, c.book.past.length⟩ plan e (fates (lane w) l e)) ∧
      Stands (s.note ⟨fd, k, c.book.past.length⟩ plan e (fates (lane w) l e)) w.config fd k c' := by
  have hwaits : c.book.exchanges.length = c.book.past.length := by
    rw [exchanges_length, (h.idle hphase).2]
    rfl
  have hfresh : ¬ s.Knows ⟨fd, k, c.book.past.length⟩ := fun hknown =>
    (h.begun _ hknown rfl rfl).ne hwaits.symm
  have hunsampled : (⟨fd, k, c.book.past.length⟩ : Request) ∉ s.sampled.map (·.request) :=
    fun hmem => hfresh (.inl hmem)
  have huncounted : (⟨fd, k, c.book.past.length⟩ : Request) ∉ s.counted.map (·.1) :=
    fun hmem => hunsampled (hb.origin _ hmem)
  obtain ⟨hlt, -⟩ := List.getElem?_eq_some_iff.mp hat
  have hold : ∀ r, s.Knows r → r.fd = fd → r.connection = k →
      r.number < c₁.book.exchanges.length := by
    intro r hknown hfd hk
    have hbefore := h.begun r hknown hfd hk
    omega
  obtain ⟨e', he', hsame⟩ := honward.keeps _ _ hat
  have hbody' : e'.body = [] := hsame.2.trans hbody
  have hnew : ∀ {counted : List Fate} {p : Sampled},
      p ∈ (s.note ⟨fd, k, c.book.past.length⟩ plan (some e') counted).sampled →
      p.request = ⟨fd, k, c.book.past.length⟩ → plan = some p.plan := by
    intro counted p hp hr
    rcases List.mem_append.mp hp with hmem | hmem
    · exact absurd (List.mem_map.mpr ⟨p, hmem, hr⟩) hunsampled
    · cases plan with
      | none => cases hmem
      | some q =>
          rw [Option.map_some, Option.toList_some, List.mem_singleton] at hmem
          rw [hmem]
  have hwholes : ∀ counted : List Fate, (⟨fd, k, c.book.past.length⟩ : Request) ∈
      (s.note ⟨fd, k, c.book.past.length⟩ plan (some e') counted).whole ↔
        Exchange.whole e' = true := by
    intro counted
    unfold Watch.note
    dsimp only [Option.any_some]
    split
    · rename_i hall
      exact iff_of_true (List.mem_append_right _ (List.mem_singleton_self _)) hall
    · rename_i hshort
      exact iff_of_false (fun hmem => hfresh (.inr hmem)) hshort
  have hbooked : ∀ f : Option Fate,
      (∀ q, plan = some q → (f.isSome = true ↔
        q.planned = true ∧ (q.settled = true ∨ Exchange.whole e' = true))) →
      (f.isSome = true → plan.isSome = true) →
      (∀ fate ∈ f, fate.Faithful w.config.mirrorMaxBody) →
      Booked (Lane.count (lane w) f)
        (s.note ⟨fd, k, c.book.past.length⟩ plan (some e') f.toList) := by
    intro f hdue hplan hfaithful
    refine hb.note (fun _ => hunsampled) (fun _ => huncounted) (fun p hp hr => ?_) (fun hsome => ?_)
      hfaithful
    · unfold Due
      rw [hr, hwholes, ← hdue p.plan (hnew hp hr)]
      simp only [Watch.note, List.map_append, List.mem_append, huncounted, false_or]
      cases f <;> simp
    · obtain ⟨q, hq⟩ := Option.isSome_iff_exists.mp (hplan hsome)
      simp [Watch.note, hq]
  have hstands : ∀ counted : List Fate,
      (∀ q, plan = some q → q.planned = true → q.settled = false → Exchange.whole e' = false →
        c₁.mirror ≠ none) →
      (∀ copy, c₁.mirror = some copy → c₁.book.past.length = c.book.past.length ∧
        Pending (s.note ⟨fd, k, c.book.past.length⟩ plan (some e') counted) w.config
          ⟨fd, k, c.book.past.length⟩ c₁ copy) →
      Stands (s.note ⟨fd, k, c.book.past.length⟩ plan (some e') counted) w.config fd k c' := by
    intro counted hwait hpend
    refine Stands.onward ⟨hidle, fun r hknown hfd hk => ?_, fun p hp hr hplanned hopen hshort => ?_,
      fun copy hmirror => ?_⟩ honward
    · rcases knows_note hknown with hknown | rfl
      · exact hold r hknown hfd hk
      · exact hlt
    · have hsame : c₁.book.past.length = c.book.past.length := by
        rcases knows_note (.inl (List.mem_map_of_mem hp)) with hknown | hown
        · have hbefore := h.begun p.request hknown (by rw [hr]) (by rw [hr])
          rw [hr, hwaits] at hbefore
          exact absurd hpast (not_le.mpr hbefore)
        · rw [hr] at hown
          exact congrArg Request.number hown
      rw [hsame] at hr
      refine hwait p.plan (hnew hp hr) hplanned hopen ?_
      rw [hr, hwholes] at hshort
      exact Bool.not_eq_true _ |>.mp hshort
    · obtain ⟨hsame, hpending⟩ := hpend copy hmirror
      rw [hsame]
      exact hpending
  have hnotSome : (none : Option Fate).isSome = true → plan.isSome = true :=
    fun h => absurd h Bool.false_ne_true
  have hnotMem : ∀ fate ∈ (none : Option Fate), fate.Faithful w.config.mirrorMaxBody :=
    fun _ h => absurd h (Option.not_mem_none _)
  have hnoCopy : ∀ {P : MirrorCopy → Prop} (copy : MirrorCopy), none = some copy → P copy :=
    fun _ h => absurd h (Option.some_ne_none _).symm
  dsimp only
  rw [he']
  generalize hmirror : c₁.mirror = made at hplanned hcopy hstands
  cases hplanned with
  | passed hpassed =>
      rw [fates_none]
      refine ⟨hbooked none (fun q hq => ?_) hnotSome hnotMem,
        hstands _ (fun q hq hplanned => ?_) hnoCopy⟩
      · rw [hpassed q hq]
        simp
      · rw [hpassed q hq] at hplanned
        cases hplanned
  | @settled p _ hplanned hsettled hcount =>
      have hdue : ∀ q, some p = some q → (true = true ↔
          q.planned = true ∧ (q.settled = true ∨ Exchange.whole e' = true)) := by
        rintro q hq
        cases hq
        simp [hplanned, hsettled]
      have hwait : ∀ q, some p = some q → q.planned = true → q.settled = false →
          Exchange.whole e' = false → (none : Option MirrorCopy) ≠ none := by
        rintro q hq - hopen -
        cases hq
        rw [hsettled] at hopen
        cases hopen
      rcases hcount with rfl | rfl
      · rw [fates_skip]
        exact ⟨hbooked (some .skipped) hdue (fun _ => rfl) (fun _ h => by cases h; trivial),
          hstands _ hwait hnoCopy⟩
      · rw [fates_fail]
        exact ⟨hbooked (some .failed) hdue (fun _ => rfl) (fun _ h => by cases h; trivial),
          hstands _ hwait hnoCopy⟩
  | @sent p copy hplanned hopen hempty hsent =>
      have hall : Exchange.whole e' = true := by
        unfold Exchange.whole
        rw [hsame.1, hempty, hbody']
        rfl
      rw [fates_send]
      refine ⟨hbooked (some (.enqueued copy (some e'))) (fun q hq => ?_) (fun _ => rfl)
        fun fate hfate => ?_, hstands _ (fun q _ _ _ hshort => ?_) hnoCopy⟩
      · cases hq
        simp [hplanned, hall]
      · cases hfate
        exact ⟨e', rfl, hsent.trans hbody'.symm, hall, by rw [hsent]; exact Nat.zero_le _⟩
      · rw [hall] at hshort
        cases hshort
  | @kept p copy hplanned hopen hlane hmeasured hkept hsmall =>
      obtain ⟨n, hframing, hpos, hleft, hpast'⟩ := hcopy (Option.some_ne_none _)
      have hshort : Exchange.whole e' = false := by
        unfold Exchange.whole
        rw [hsame.1, hframing, hbody']
        simp only [List.length_nil, beq_eq_false_iff_ne]
        omega
      rw [fates_none]
      refine ⟨hbooked none (fun q hq => ?_) hnotSome hnotMem,
        hstands _ (fun _ _ _ _ _ => Option.some_ne_none _) fun copy' hcopy' => ⟨hpast', ?_⟩⟩
      · cases hq
        simp [hopen, hshort]
      · cases hcopy'
        have hcurrent : c₁.book.current = some e₁ := by
          rw [← exchanges_current, hpast']
          exact hat
        refine ⟨⟨⟨_, p⟩, ?_, rfl, hplanned, hopen⟩, ?_, hlane, e₁, n, n, hcurrent, hframing, hleft,
          hpos, ?_, fun _ => ?_⟩
        · exact List.mem_append_right _ (List.mem_singleton_self _)
        · rw [hwholes, hshort]
          exact Bool.false_ne_true
        · rw [hbody, List.length_nil, Nat.zero_add]
        · rw [hkept, hbody]
          exact ⟨rfl, Nat.zero_le _⟩

/-- Whatever a turn does about a copy, what is noted of it agrees with the lane. -/
theorem deed_noted {l : Lane} (hb : Booked (lane w) s) (h : Stands s w.config fd k c)
    (hdeed : Deed env ans w c l c₁) (honward : Onward c₁ c') :
    let e := c'.book.exchanges[c.book.past.length]?
    let s' := s.note ⟨fd, k, c.book.past.length⟩ (sampling env ans w c) e (fates (lane w) l e)
    Booked l s' ∧ Stands s' w.config fd k c' := by
  cases hdeed with
  | nothing hnone =>
      dsimp only
      rw [hnone, fates_none]
      exact nothing_noted hb h honward
  | begun hphase hidle hpast hat hbody hplanned hcopy =>
      exact planned_noted hb h hphase hidle hpast hat hbody hplanned hcopy honward
  | @taken _ _ n done body hphase hidle hopen htake hbook hleft hmirror hlane =>
      have hnone : sampling env ans w c = none := by
        unfold sampling asked
        rw [if_neg fun h => hphase h.1]
        rfl
      have hpast : c₁.book.past = c.book.past := by
        rw [hbook]
        rfl
      dsimp only
      rw [hnone]
      cases hcopy : c.mirror with
      | none =>
          rw [hcopy, Option.map_none] at hmirror hlane
          have hmirror' : c₁.mirror = none := by
            rw [hmirror]
            split <;> rfl
          have hlane' : l = lane w := by
            rw [hlane]
            split <;> rfl
          rw [hlane', fates_none, ← hpast]
          exact nothing_noted hb (h.took hcopy hbook hidle hmirror') honward
      | some copy =>
          rw [hcopy, Option.map_some] at hmirror hlane
          cases done with
          | false =>
              simp only [Bool.false_eq_true, if_false] at hmirror hlane hleft
              rw [hlane, fates_none, ← hpast]
              exact nothing_noted hb (h.fed hcopy htake hbook hleft hidle hmirror) honward
          | true =>
              simp only [if_true] at hmirror hlane
              rw [hlane]
              exact handed_noted hb h hcopy htake hbook hidle hmirror honward

end Standing

end Ramjet.Engine.Worker.MirrorNotes
