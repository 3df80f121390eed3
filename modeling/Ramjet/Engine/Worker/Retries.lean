/- digest: When a request is tried on a fresh connection before its endpoint is given up. -/

import Ramjet.Engine.Codec.HeadArrival
import Ramjet.Engine.Worker.Connection

set_option autoImplicit false
set_option relaxedAutoImplicit false

namespace Ramjet.Engine.Worker.Retries

open Ramjet.Base.Octets
open Ramjet.Engine.Codec.MessageHead
open Ramjet.Engine.Codec.HeadArrival
open Ramjet.Engine.Worker.Connection

section Requests

/-- No response head has come on a connection, good or bad. -/
def Unheard (t : Try) : Prop := oneShot .response t.heard = none

/-- A request that the proxy answered 502 of its own. -/
def BadGateway (e : Exchange) : Prop := 502 ∈ e.statuses ∧ e.relay = none

/-- A connection taken from the pool failed a request before any response head was seen: another
was tried after it, or the request was answered 502 with none seen. -/
structure FailedOn (e : Exchange) (before : List Try) (t : Try) (after : List Try) : Prop where
  tried : e.tried = before ++ t :: after
  pooled : t.pooled = true
  failed : after ≠ [] ∨ (BadGateway e ∧ ∀ t' ∈ e.tried, Unheard t')

/-- What becomes of a request leaves an endpoint behind: it is tried at another, or answered
502. -/
def Leaves (e : Exchange) (t : Try) : List Try → Prop
  | [] => BadGateway e
  | next :: _ => next.endpoint ≠ t.endpoint

/-- A request without a body that a pooled connection fails is tried on a fresh connection to the
same endpoint before it leaves that. -/
def Retried (e : Exchange) : Prop :=
  e.framing = .empty → ∀ before t between after, FailedOn e before t (between ++ after) →
    Leaves e t after → ∃ t' ∈ between, t'.endpoint = t.endpoint ∧ t'.pooled = false

/-- No second connection taken from the pool fails a request, nor is one that is tried right after
the first followed by a 502. -/
structure FailedOnce (e : Exchange) : Prop where
  once : ∀ before t after before' t' after', FailedOn e before t after →
    FailedOn e before' t' after' → before.length = before'.length
  last : ∀ before t t', FailedOn e before t [t'] → t'.pooled = true → ¬ BadGateway e

end Requests

section Orders

/-- The first pooled connection to be given up is followed by another to the same endpoint, every
later one by one to another endpoint. -/
def Orderly (tried : List Try) : Prop :=
  ∀ before t next after, tried = before ++ t :: next :: after → t.pooled = true →
    (next.endpoint = t.endpoint ↔ before.any Try.pooled = false)

/-- A request as the core leaves it behind: where it was answered 502 with no response head seen,
the connection tried last was fresh or was not the first from the pool. -/
structure Lawful (e : Exchange) : Prop where
  orderly : Orderly e.tried
  spent : BadGateway e → (∀ t ∈ e.tried, Unheard t) → ∀ before t, e.tried = before ++ [t] →
    t.pooled = true → before.any Try.pooled = true

variable {e : Exchange} {before after : List Try} {t : Try}

/-- Behind a pooled connection that failed it, one that fails a request makes it leave. -/
theorem leaves_of_second (h : Orderly e.tried) (hfailed : FailedOn e before t after)
    (hearlier : before.any Try.pooled = true) : Leaves e t after := by
  cases after with
  | nil => exact (hfailed.failed.resolve_left fun h => h rfl).1
  | cons next rest =>
      intro hsame
      have hfresh := (h before t next rest hfailed.tried hfailed.pooled).mp hsame
      rw [hearlier] at hfresh
      cases hfresh

/-- What was tried before a connection is among what was tried before a later one. -/
theorem mem_of_shorter {before' after' : List Try} {t' : Try}
    (h : before ++ t :: after = before' ++ t' :: after') (hlt : before.length < before'.length) :
    t ∈ before' := by
  have hat : (before' ++ t' :: after')[before.length]? = some t := by
    rw [← h]
    simp
  rw [List.getElem?_append_left hlt] at hat
  exact List.mem_of_getElem? hat

theorem once_of_retried (h : Lawful e) (hretried : Retried e) (hbody : e.framing = .empty) :
    FailedOnce e := by
  have hnever : ∀ {before t after before' t' after'}, FailedOn e before t after →
      FailedOn e before' t' after' → ¬ before.length < before'.length := by
    intro before t after before' t' after' hfirst hsecond hlt
    have hmem := mem_of_shorter (hfirst.tried.symm.trans hsecond.tried) hlt
    have hleaves := leaves_of_second h.orderly hsecond
      (List.any_eq_true.mpr ⟨t, hmem, hfirst.pooled⟩)
    obtain ⟨_, hnone, -⟩ := hretried hbody before' t' [] after' hsecond hleaves
    cases hnone
  refine ⟨fun before t after before' t' after' hfirst hsecond => ?_,
    fun before t t' hfailed hpooled hbad => ?_⟩
  · have hle := hnever hfirst hsecond
    have hge := hnever hsecond hfirst
    omega
  · obtain ⟨fresh, hmem, -, hfresh⟩ := hretried hbody before t [t'] [] hfailed hbad
    rw [List.mem_singleton.mp hmem, hpooled] at hfresh
    cases hfresh

theorem retried_of_once (h : Lawful e) (honce : e.framing = .empty → FailedOnce e) :
    Retried e := by
  intro hbody before t between after hfailed hleaves
  have honce := honce hbody
  have hfirst : before.any Try.pooled = false := by
    by_contra hany
    obtain ⟨t', ht', hpooled⟩ := List.any_eq_true.mp (Bool.eq_true_of_not_eq_false hany)
    obtain ⟨front, back, hsplit⟩ := List.append_of_mem ht'
    have hearlier : FailedOn e front t' (back ++ t :: (between ++ after)) := by
      refine ⟨?_, hpooled, .inl (by simp)⟩
      rw [hfailed.tried, hsplit, List.append_assoc, List.cons_append]
    have hlength := honce.once _ _ _ _ _ _ hearlier hfailed
    rw [hsplit, List.length_append, List.length_cons] at hlength
    omega
  cases between with
  | nil =>
      cases after with
      | nil =>
          obtain ⟨hbad, hunheard⟩ := hfailed.failed.resolve_left fun h => h rfl
          have hearlier := h.spent hbad hunheard before t hfailed.tried hfailed.pooled
          rw [hfirst] at hearlier
          cases hearlier
      | cons next rest =>
          exact absurd ((h.orderly before t next rest hfailed.tried hfailed.pooled).mpr hfirst)
            hleaves
  | cons next rest =>
      have hsame : next.endpoint = t.endpoint :=
        (h.orderly before t next (rest ++ after) hfailed.tried hfailed.pooled).mpr hfirst
      refine ⟨next, List.mem_cons_self, hsame, ?_⟩
      by_contra hpooled
      have hpooled : next.pooled = true := by simpa using hpooled
      cases hlast : rest ++ after with
      | nil =>
          obtain ⟨rfl, rfl⟩ := List.append_eq_nil_iff.mp hlast
          exact honce.last before t next hfailed hpooled hleaves
      | cons later more =>
          have hsecond : FailedOn e (before ++ [t]) next (later :: more) := by
            refine ⟨?_, hpooled, .inl (List.cons_ne_nil _ _)⟩
            rw [hfailed.tried, List.cons_append, hlast, List.append_assoc]
            rfl
          have hlength := honce.once _ _ _ _ _ _ hfailed hsecond
          rw [List.length_append, List.length_singleton] at hlength
          omega

/-- A request is tried afresh before it leaves an endpoint exactly where only one pooled connection
fails it. -/
theorem retried_iff (h : Lawful e) :
    Retried e ↔ (e.framing = .empty → FailedOnce e) :=
  ⟨once_of_retried h, retried_of_once h⟩

end Orders

section Hearing

/-- What has answered a head has answered one whatever follows. -/
theorem heard_grown {seen more : Bytes} (h : oneShot .response seen ≠ none) :
    oneShot .response (seen ++ more) ≠ none := by
  obtain ⟨a, ha⟩ := Option.ne_none_iff_exists'.mp h
  rw [oneShot_settled .response seen more a ha]
  exact Option.some_ne_none a

/-- A head answered by a resumed search is answered by one of all the bytes. -/
theorem oneShot_of_answer {buf : Bytes} {h0 : Head}
    (h : (parseResponseHead .standard buf h0).1 ≠ .ok false) : oneShot .response buf ≠ none := by
  intro hnone
  refine h ?_
  rw [← parseHead_response]
  rcases oneShot_cases .response buf with ⟨i, -, hfound⟩ | ⟨hfree, hlimit⟩
  · rw [hfound] at hnone
    split_ifs at hnone
    exact (answer_readBlock_ne_none _ _ _ _ hnone).elim
  · rw [hlimit] at hnone
    split_ifs at hnone with hshort
    have hrest : findSub crlfcrlf (buf.drop (min (h0.scanned - 3) buf.length)) = none := by
      rw [findSub_eq_none_iff] at hfree ⊢
      exact fun hwithin => hfree (hwithin.trans (List.drop_suffix _ _).isInfix)
    have hscan : findHeadEnd .standard buf h0 = (.ok none, { h0 with scanned := buf.length }) := by
      unfold findHeadEnd
      simp only [hrest, Option.map_none, Limits.headExceeds, Limits.standard, Option.any_some,
        decide_eq_true_eq]
      rw [if_neg hshort]
    unfold parseHead
    rw [hscan]

theorem oneShot_nil_response : oneShot .response [] = none := oneShot_nil .response

end Hearing

end Ramjet.Engine.Worker.Retries
