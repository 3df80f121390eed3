/- digest: The addresses the status writer has given out, and which of them a pass takes back. -/

import Ramjet.Controller.Rebuild

set_option autoImplicit false
set_option relaxedAutoImplicit false

namespace Ramjet.Controller.StatusAddresses

open Ramjet.Base.Octets
open Ramjet.Base.AssocMap
open Ramjet.Controller.Objects
open Ramjet.Controller.Rebuild

section Ledger

/-- A write and whether it stuck. -/
abbrev Outcome := Write × Bool

/-- What a write that stuck left in the status of an Ingress, where it is about that at all. -/
def entryOf (key : ObjectKey) : Outcome → Option (Option Address)
  | (.address k entry, true) => if k = key then some entry else none
  | _ => none

/-- What the last write that stuck left in the status of an Ingress. -/
def lastEntry (key : ObjectKey) (written : List Outcome) : Option (Option Address) :=
  written.reverse.findSome? (entryOf key)

/-- The address an Ingress carries by what has been written to it. -/
def carries (key : ObjectKey) (written : List Outcome) : Option Address :=
  (lastEntry key written).join

/-- The writer with every write so far, those before the last `invalidate` apart. -/
structure Ledger where
  writer : StatusWriter
  earlier : List Outcome := []
  since : List Outcome := []
  deriving DecidableEq

def Ledger.written (l : Ledger) : List Outcome := l.earlier ++ l.since

/-- A call of the writer; a pass comes with what its requests are answered. -/
inductive Call where
  | sync (managed : List ObjectKey) (generation : Nat) (observed : Map ObjectKey Nat)
      (answer : ServiceAnswer) (stuck : Nat → Bool)
  | invalidate

def outcomes (stuck : Nat → Bool) (sent : List Write) : List Outcome :=
  sent.mapIdx fun i write => (write, stuck i)

def Ledger.step (l : Ledger) : Call → Ledger
  | .sync managed generation observed answer stuck =>
      let s := sync stuck managed generation observed answer ⟨l.writer, []⟩
      { l with writer := s.writer, since := l.since ++ outcomes stuck s.sent }
  | .invalidate => ⟨l.writer.invalidate, l.earlier ++ l.since, []⟩

/-- A writer that has written nothing. -/
def opened (configured : Option Address) (publishService : Option (Bytes × Bytes)) : Ledger where
  writer := { configured := configured, publishService := publishService }

def Ledger.run (l : Ledger) (calls : List Call) : Ledger := calls.foldl Ledger.step l

theorem lastEntry_append (key : ObjectKey) (earlier later : List Outcome) :
    lastEntry key (earlier ++ later) = (lastEntry key later).or (lastEntry key earlier) := by
  rw [lastEntry, List.reverse_append, List.findSome?_append]
  rfl

theorem carries_append_of_some {key : ObjectKey} {earlier later : List Outcome}
    {entry : Option Address} (h : lastEntry key later = some entry) :
    carries key (earlier ++ later) = entry := by
  rw [carries, lastEntry_append, h]
  rfl

theorem carries_append_of_none {key : ObjectKey} {earlier later : List Outcome}
    (h : lastEntry key later = none) : carries key (earlier ++ later) = carries key earlier := by
  rw [carries, lastEntry_append, h]
  rfl

theorem outcomes_append_one (stuck : Nat → Bool) (sent : List Write) (write : Write) :
    outcomes stuck (sent ++ [write]) = outcomes stuck sent ++ [(write, stuck sent.length)] :=
  List.mapIdx_concat

end Ledger

section Passes

variable (stuck : Nat → Bool)

/-- Every write of a pass stuck. -/
def AllStuck (s : Syncing) : Prop := ∀ i < s.sent.length, stuck i = true

/-- The addresses remembered are those the writes since some point left behind. -/
def Tracks (log : List Outcome) (s : Syncing) : Prop :=
  ∀ key, get s.writer.applied key = carries key (log ++ outcomes stuck s.sent)

/-- A part of a pass, which writes addresses to the Ingresses listed and to no others. -/
structure Advances (keys : List ObjectKey) (s s' : Syncing) : Prop where
  longer : s.sent.length ≤ s'.sent.length
  tracks : ∀ log, Tracks stuck log s → Tracks stuck log s'
  other : ∀ log, ∀ key ∉ keys,
    lastEntry key (log ++ outcomes stuck s'.sent) = lastEntry key (log ++ outcomes stuck s.sent)

variable {stuck}

theorem Advances.refl (keys : List ObjectKey) (s : Syncing) : Advances stuck keys s s :=
  ⟨le_rfl, fun _ h => h, fun _ _ _ => rfl⟩

theorem Advances.trans {keys more : List ObjectKey} {s s' s'' : Syncing}
    (h : Advances stuck keys s s') (h' : Advances stuck more s' s'') :
    Advances stuck (keys ++ more) s s'' where
  longer := h.longer.trans h'.longer
  tracks log hlog := h'.tracks log (h.tracks log hlog)
  other log key hkey := by
    rw [List.mem_append, not_or] at hkey
    rw [h'.other log key hkey.2, h.other log key hkey.1]

theorem AllStuck.before {keys : List ObjectKey} {s s' : Syncing} (h : Advances stuck keys s s')
    (hs' : AllStuck stuck s') : AllStuck stuck s :=
  fun i hi => hs' i (hi.trans_le h.longer)

theorem advances_foldl {f : Syncing → ObjectKey → Syncing}
    (hf : ∀ s key, Advances stuck [key] s (f s key)) (keys : List ObjectKey) (s : Syncing) :
    Advances stuck keys s (keys.foldl f s) := by
  induction keys generalizing s with
  | nil => exact .refl [] s
  | cons key keys ih => exact (hf s key).trans (ih (f s key))

/-- Writes that all stick leave each Ingress with the entry of its own. -/
theorem get_foldl {f : Syncing → ObjectKey → Syncing} {entry : Option Address}
    (hf : ∀ s key, Advances stuck [key] s (f s key))
    (hone : ∀ s k, AllStuck stuck (f s k) → ∀ key, get (f s k).writer.applied key =
      if key = k then entry else get s.writer.applied key)
    (keys : List ObjectKey) (s : Syncing) (hstuck : AllStuck stuck (keys.foldl f s))
    (key : ObjectKey) : get (keys.foldl f s).writer.applied key =
      if key ∈ keys then entry else get s.writer.applied key := by
  induction keys generalizing s with
  | nil => simp
  | cons k keys ih =>
      have hbefore : AllStuck stuck (f s k) := hstuck.before (advances_foldl hf keys (f s k))
      rw [List.foldl_cons, ih (f s k) hstuck, hone s k hbefore key]
      by_cases hin : key ∈ keys
      · simp [hin]
      · simp [hin]

/-- A write of an address moves what is remembered just where it sticks. -/
theorem advances_send_address {s : Syncing} {k : ObjectKey} {entry : Option Address}
    {done : StatusWriter → StatusWriter}
    (hdone : ∀ w key, get (done w).applied key = if key = k then entry else get w.applied key) :
    Advances stuck [k] s (s.send stuck (.address k entry) done) where
  longer := by simp [Syncing.send]
  tracks log hlog := by
    intro key
    have hkey := hlog key
    simp only [Syncing.send, outcomes_append_one]
    rw [← List.append_assoc, carries, lastEntry_append]
    cases hs : stuck s.sent.length with
    | false =>
        simpa [lastEntry, entryOf, carries] using hkey
    | true =>
        by_cases hk : key = k
        · subst hk
          simp [lastEntry, entryOf, hdone]
        · simpa [lastEntry, entryOf, hdone, hk, Ne.symm hk, carries] using hkey
  other log key hkey := by
    rw [List.mem_singleton] at hkey
    simp only [Syncing.send, outcomes_append_one]
    rw [← List.append_assoc, lastEntry_append]
    cases hs : stuck s.sent.length with
    | false => simp [lastEntry, entryOf]
    | true => simp [lastEntry, entryOf, Ne.symm hkey]

theorem get_send_address {s : Syncing} {k : ObjectKey} {entry : Option Address}
    {done : StatusWriter → StatusWriter}
    (hdone : ∀ w key, get (done w).applied key = if key = k then entry else get w.applied key)
    (hstuck : AllStuck stuck (s.send stuck (.address k entry) done)) (key : ObjectKey) :
    get (s.send stuck (.address k entry) done).writer.applied key =
      if key = k then entry else get s.writer.applied key := by
  have hlast : stuck s.sent.length = true := hstuck _ (by simp [Syncing.send])
  rw [Syncing.send, if_pos hlast]
  exact hdone s.writer key

private theorem get_clear (k : ObjectKey) (w : StatusWriter) (key : ObjectKey) :
    get (retain w.applied fun k' => decide (k' ≠ k)) key =
      if key = k then none else get w.applied key := by
  rw [get_retain]
  by_cases hk : key = k
  · simp [hk]
  · simp [hk]

theorem advances_clearStale (s : Syncing) (key : ObjectKey) :
    Advances stuck [key] s (clearStale stuck s key) :=
  advances_send_address (get_clear key)

theorem get_clearStale (s : Syncing) (k : ObjectKey) (h : AllStuck stuck (clearStale stuck s k))
    (key : ObjectKey) : get (clearStale stuck s k).writer.applied key =
      if key = k then none else get s.writer.applied key :=
  get_send_address (get_clear k) h key

theorem advances_syncAddress (address : Option Address) (s : Syncing) (key : ObjectKey) :
    Advances stuck [key] s (syncAddress stuck address s key) := by
  cases address with
  | none => exact .refl [key] s
  | some address =>
      rw [syncAddress]
      split
      · exact .refl [key] s
      · exact advances_send_address fun w k => get_insert w.applied key k address

theorem get_syncAddress {address : Address} (s : Syncing) (k : ObjectKey)
    (h : AllStuck stuck (syncAddress stuck (some address) s k)) (key : ObjectKey) :
    get (syncAddress stuck (some address) s k).writer.applied key =
      if key = k then some address else get s.writer.applied key := by
  rw [syncAddress] at h ⊢
  split
  · rename_i hsame
    by_cases hk : key = k
    · rw [hk, if_pos rfl, hsame]
    · rw [if_neg hk]
  · rename_i hdiffers
    rw [if_neg hdiffers] at h
    exact get_send_address (fun w k' => get_insert w.applied k k' address) h key

/-- A generation written leaves every address alone. -/
theorem advances_syncObserved (generation : Nat) (observed : Map ObjectKey Nat) (s : Syncing)
    (key : ObjectKey) :
    Advances stuck [] s (syncObserved stuck generation observed s key) ∧
      (syncObserved stuck generation observed s key).writer.applied = s.writer.applied := by
  rw [syncObserved]
  split
  · have hlast (log : List Outcome) (k : ObjectKey) :
        lastEntry k (log ++ outcomes stuck (s.sent ++ [.observed key generation])) =
          lastEntry k (log ++ outcomes stuck s.sent) := by
      rw [outcomes_append_one, ← List.append_assoc, lastEntry_append]
      simp [lastEntry, entryOf]
    have happlied : (s.send stuck (.observed key generation) fun w =>
        { w with annotated := insert w.annotated key generation }).writer.applied =
          s.writer.applied := by
      rw [Syncing.send]
      split <;> rfl
    refine ⟨⟨?_, ?_, ?_⟩, happlied⟩
    · simp [Syncing.send]
    · intro log hlog k
      rw [happlied, hlog k, carries, carries, ← hlast log k]
      rfl
    · intro log k _
      exact hlast log k
  · exact ⟨.refl [] s, rfl⟩

/-- One managed Ingress gets its address and its generation. -/
def writeManaged (stuck : Nat → Bool) (address : Option Address) (generation : Nat)
    (observed : Map ObjectKey Nat) (s : Syncing) (key : ObjectKey) : Syncing :=
  syncObserved stuck generation observed (syncAddress stuck address s key) key

theorem advances_writeManaged (address : Option Address) (generation : Nat)
    (observed : Map ObjectKey Nat) (s : Syncing) (key : ObjectKey) :
    Advances stuck [key] s (writeManaged stuck address generation observed s key) := by
  have hone : Advances stuck [key] s (syncAddress stuck address s key) :=
    advances_syncAddress address s key
  exact hone.trans (advances_syncObserved generation observed _ key).1

theorem get_writeManaged {address : Address} {generation : Nat} {observed : Map ObjectKey Nat}
    (s : Syncing) (k : ObjectKey)
    (h : AllStuck stuck (writeManaged stuck (some address) generation observed s k))
    (key : ObjectKey) :
    get (writeManaged stuck (some address) generation observed s k).writer.applied key =
      if key = k then some address else get s.writer.applied key := by
  let s' := syncAddress stuck (some address) s k
  obtain ⟨hadvances, hsame⟩ : Advances stuck [] s' (syncObserved stuck generation observed s' k) ∧
      (syncObserved stuck generation observed s' k).writer.applied = s'.writer.applied :=
    advances_syncObserved generation observed s' k
  rw [writeManaged, hsame]
  exact get_syncAddress s k (h.before hadvances) key

end Passes

section Syncs

variable (stuck : Nat → Bool) (managed : List ObjectKey) (generation : Nat)
variable (observed : Map ObjectKey Nat) (answer : ServiceAnswer)

/-- The Ingresses given an address and managed no longer, as far as the writer remembers. -/
def stale (writer : StatusWriter) : List ObjectKey :=
  (writer.applied.map (·.1)).filter fun key => key ∉ managed

/-- A pass that has cleared what is stale and written nothing else. -/
def cleared (writer : StatusWriter) : Syncing :=
  let s := (stale managed writer).foldl (clearStale stuck) ⟨writer, []⟩
  ⟨{ s.writer with annotated := retain s.writer.annotated fun key => decide (key ∈ managed) },
    s.sent⟩

theorem sync_eq (writer : StatusWriter) :
    sync stuck managed generation observed answer ⟨writer, []⟩ =
      managed.foldl (writeManaged stuck (writer.address answer) generation observed)
        (cleared stuck managed writer) := rfl

variable {stuck managed generation observed answer}

theorem advances_cleared (writer : StatusWriter) :
    Advances stuck (stale managed writer) ⟨writer, []⟩ (cleared stuck managed writer) := by
  obtain ⟨hlonger, htracks, hother⟩ : Advances stuck (stale managed writer) ⟨writer, []⟩
      ((stale managed writer).foldl (clearStale stuck) ⟨writer, []⟩) :=
    advances_foldl advances_clearStale (stale managed writer) ⟨writer, []⟩
  exact ⟨hlonger, htracks, hother⟩

theorem advances_sync (writer : StatusWriter) :
    Advances stuck (stale managed writer ++ managed) ⟨writer, []⟩
      (sync stuck managed generation observed answer ⟨writer, []⟩) := by
  rw [sync_eq]
  exact (advances_cleared writer).trans (advances_foldl (advances_writeManaged _ _ _) managed _)

/-- A pass whose writes stick remembers no Ingress that is not managed. -/
theorem forgets_unmanaged {writer : StatusWriter}
    (hstuck : AllStuck stuck (sync stuck managed generation observed answer ⟨writer, []⟩))
    {key : ObjectKey} (hkey : key ∉ managed) {log : List Outcome}
    (hlog : Tracks stuck log ⟨writer, []⟩) :
    carries key (log ++ outcomes stuck
      (sync stuck managed generation observed answer ⟨writer, []⟩).sent) = none := by
  have hmanaged : Advances stuck managed (cleared stuck managed writer)
      (sync stuck managed generation observed answer ⟨writer, []⟩) :=
    advances_foldl (advances_writeManaged (writer.address answer) generation observed) managed _
  have hclear : Advances stuck (stale managed writer) ⟨writer, []⟩
      (cleared stuck managed writer) := advances_cleared writer
  have hmid : AllStuck stuck (cleared stuck managed writer) := hstuck.before hmanaged
  have hget : get (cleared stuck managed writer).writer.applied key = none := by
    have hone := get_foldl advances_clearStale get_clearStale (stale managed writer)
      ⟨writer, []⟩ hmid key
    rw [cleared, hone]
    split
    · rfl
    · rename_i hfresh
      have habsent : ¬ (get writer.applied key).isSome = true := by
        rw [get_isSome_iff]
        intro hin
        exact hfresh (List.mem_filter.mpr ⟨hin, by simpa using hkey⟩)
      simpa using habsent
  rw [carries, hmanaged.other log key hkey, ← carries]
  exact (hclear.tracks log hlog key).symm.trans hget

/-- A pass whose writes stick remembers the current address of every managed Ingress. -/
theorem remembers_managed {writer : StatusWriter}
    (hstuck : AllStuck stuck (sync stuck managed generation observed answer ⟨writer, []⟩))
    {key : ObjectKey} (hkey : key ∈ managed) {address : Address}
    (haddress : writer.address answer = some address) :
    get (sync stuck managed generation observed answer ⟨writer, []⟩).writer.applied key =
      some address := by
  rw [sync_eq, haddress] at hstuck ⊢
  rw [get_foldl (advances_writeManaged _ _ _) get_writeManaged managed _ hstuck key, if_pos hkey]

/-- An Ingress neither remembered nor managed is not written to. -/
theorem lastEntry_untouched {writer : StatusWriter} {key : ObjectKey}
    (hforgotten : get writer.applied key = none) (hkey : key ∉ managed) (log : List Outcome) :
    lastEntry key (log ++ outcomes stuck
      (sync stuck managed generation observed answer ⟨writer, []⟩).sent) = lastEntry key log := by
  have hfresh : key ∉ stale managed writer ++ managed := by
    rw [List.mem_append, not_or]
    refine ⟨?_, hkey⟩
    intro hin
    have hsome := (get_isSome_iff writer.applied key).mpr (List.mem_filter.mp hin).1
    rw [hforgotten] at hsome
    cases hsome
  rw [(advances_sync writer).other log key hfresh]
  simp [outcomes]

end Syncs

section Runs

/-- A pass, all of its writes accepted. -/
def Accepted (l : Ledger) : Call → Prop
  | .sync managed generation observed answer stuck =>
      AllStuck stuck (sync stuck managed generation observed answer ⟨l.writer, []⟩)
  | .invalidate => False

/-- By the end of a pass no Ingress that is not managed carries an address of ours, and those
managed carry the current one. -/
def Converged (l : Ledger) : Call → Prop
  | .sync managed generation observed answer stuck =>
      let after := (l.step (.sync managed generation observed answer stuck)).written
      (∀ key ∉ managed, carries key after = none) ∧
        ∀ key ∈ managed, ∀ address, l.writer.address answer = some address →
          carries key after = some address
  | .invalidate => True

/-- Each Ingress that carries an address and is not managed was written since the last
`invalidate`. -/
def Remembered (l : Ledger) : Call → Prop
  | .sync managed _ _ _ _ =>
      ∀ key ∉ managed, carries key l.written ≠ none → lastEntry key l.since ≠ none
  | .invalidate => True

/-- The addresses remembered are those written since the last `invalidate`. -/
def Ledger.Tracked (l : Ledger) : Prop := ∀ key, get l.writer.applied key = carries key l.since

theorem Ledger.Tracked.step {l : Ledger} (h : l.Tracked) (call : Call) : (l.step call).Tracked := by
  cases call with
  | sync managed generation observed answer stuck =>
      have hbefore : Tracks stuck l.since ⟨l.writer, []⟩ := by
        intro key
        rw [h key]
        simp [outcomes]
      exact (advances_sync l.writer).tracks l.since hbefore
  | invalidate =>
      intro key
      rfl

theorem tracked_run (configured : Option Address) (publishService : Option (Bytes × Bytes))
    (calls : List Call) : ((opened configured publishService).run calls).Tracked := by
  have hrun : ∀ (l : Ledger), l.Tracked → (l.run calls).Tracked := by
    induction calls with
    | nil => exact fun l h => h
    | cons call calls ih => exact fun l h => ih (l.step call) (h.step call)
  apply hrun
  intro key
  rfl

private theorem Ledger.Tracked.tracks {l : Ledger} (h : l.Tracked) (stuck : Nat → Bool) :
    Tracks stuck l.since ⟨l.writer, []⟩ := by
  intro key
  rw [h key]
  simp [outcomes]

section OnePass

variable {l : Ledger} {managed : List ObjectKey} {generation : Nat}
variable {observed : Map ObjectKey Nat} {answer : ServiceAnswer} {stuck : Nat → Bool}

/-- An Ingress that is not managed is cleared where the writer still remembers it. -/
theorem Ledger.Tracked.cleared_iff (h : l.Tracked)
    (haccepted : Accepted l (.sync managed generation observed answer stuck)) {key : ObjectKey}
    (hkey : key ∉ managed) :
    carries key (l.step (.sync managed generation observed answer stuck)).written = none ↔
      (carries key l.written ≠ none → lastEntry key l.since ≠ none) := by
  rw [Ledger.written, Ledger.written]
  cases hsince : lastEntry key l.since with
  | none =>
      have hget : get l.writer.applied key = none := by
        rw [h key, carries, hsince]
        rfl
      have hafter : lastEntry key
          (l.step (.sync managed generation observed answer stuck)).since = none :=
        (lastEntry_untouched hget hkey l.since).trans hsince
      rw [carries_append_of_none hafter, carries_append_of_none hsince]
      exact ⟨fun hnone hcarries => absurd hnone hcarries,
        fun hkept => by_contra fun hcarries => hkept hcarries rfl⟩
  | some entry =>
      have hgone := forgets_unmanaged haccepted hkey (h.tracks stuck)
      obtain ⟨entry', hafter⟩ : ∃ entry', lastEntry key
          (l.step (.sync managed generation observed answer stuck)).since = some entry' := by
        rw [Ledger.step, lastEntry_append, hsince, ← Option.isSome_iff_exists, Option.isSome_or]
        simp
      rw [carries_append_of_some hafter]
      have hentry : entry' = none := by
        rw [← hgone, carries]
        exact (congrArg Option.join hafter).symm
      exact ⟨fun _ _ => Option.some_ne_none entry, fun _ => hentry⟩

/-- A managed Ingress carries the current address. -/
theorem Ledger.Tracked.given (h : l.Tracked)
    (haccepted : Accepted l (.sync managed generation observed answer stuck)) {key : ObjectKey}
    (hkey : key ∈ managed) {address : Address} (haddress : l.writer.address answer = some address) :
    carries key (l.step (.sync managed generation observed answer stuck)).written =
      some address := by
  have hafter := h.step (.sync managed generation observed answer stuck) key
  have hget := remembers_managed haccepted hkey haddress
  rw [show get (l.step (.sync managed generation observed answer stuck)).writer.applied key =
    some address from hget] at hafter
  rw [Ledger.written, carries_append_of_some (Option.join_eq_some_iff.mp hafter.symm)]

end OnePass

/-- What one accepted pass comes to. -/
theorem Ledger.Tracked.converged_iff {l : Ledger} (h : l.Tracked) {call : Call}
    (haccepted : Accepted l call) : Converged l call ↔ Remembered l call := by
  cases call with
  | invalidate => exact haccepted.elim
  | sync managed generation observed answer stuck =>
      constructor
      · rintro ⟨hcleared, -⟩ key hkey
        exact (h.cleared_iff haccepted hkey).mp (hcleared key hkey)
      · intro hremembered
        refine ⟨fun key hkey => ?_, fun key hkey address haddress => ?_⟩
        · exact (h.cleared_iff haccepted hkey).mpr (hremembered key hkey)
        · exact h.given haccepted hkey haddress

/-- In every run, the accepted passes all converge exactly when none of them leaves behind an
Ingress that was given its address before the last `invalidate`. -/
theorem converged_iff_remembered (configured : Option Address)
    (publishService : Option (Bytes × Bytes)) (calls : List Call) :
    (∀ before call, before ++ [call] <+: calls →
        Accepted ((opened configured publishService).run before) call →
          Converged ((opened configured publishService).run before) call) ↔
      ∀ before call, before ++ [call] <+: calls →
        Accepted ((opened configured publishService).run before) call →
          Remembered ((opened configured publishService).run before) call := by
  have hone (before : List Call) (call : Call)
      (haccepted : Accepted ((opened configured publishService).run before) call) :=
    (tracked_run configured publishService before).converged_iff haccepted
  constructor
  · intro h before call hin haccepted
    exact (hone before call haccepted).mp (h before call hin haccepted)
  · intro h before call hin haccepted
    exact (hone before call haccepted).mpr (h before call hin haccepted)

/-- An Ingress given its address before the watch restarted is not cleared after. -/
theorem not_converged_of_invalidate :
    ¬ ∀ (configured : Option Address) (publishService : Option (Bytes × Bytes))
      (calls : List Call), ∀ before call, before ++ [call] <+: calls →
        Accepted ((opened configured publishService).run before) call →
          Converged ((opened configured publishService).run before) call := by
  intro hall
  let web : ObjectKey := ⟨ascii "prod", ascii "web"⟩
  let accepts : Nat → Bool := fun _ => true
  let before : List Call := [.sync [web] 1 [] none accepts, .invalidate]
  let last : Call := .sync [] 2 [] none accepts
  have haccepted : Accepted ((opened (some (.ip (ascii "203.0.113.10"))) none).run before) last :=
    fun _ _ => rfl
  have hconverged := hall (some (.ip (ascii "203.0.113.10"))) none (before ++ [last]) before last
    (List.prefix_refl _) haccepted
  have hcarries : carries web ((opened (some (.ip (ascii "203.0.113.10"))) none).run
      (before ++ [last])).written = some (.ip (ascii "203.0.113.10")) := by decide +kernel
  exact absurd (hcarries.symm.trans (hconverged.1 web (List.not_mem_nil))) (by simp)

end Runs

end Ramjet.Controller.StatusAddresses
