/- digest: Every descriptor handed over is answered once; when the answers go by their own events. -/

import Mathlib.Data.List.Basic
import Mathlib.Data.List.Induction
import Mathlib.Data.List.Perm.Basic
import Ramjet.Engine.Helper

set_option autoImplicit false
set_option relaxedAutoImplicit false

namespace Ramjet.Engine.HelperNotes

open Ramjet.Base.Machine
open Ramjet.Engine.Helper

section Pipes

/-- The connect notes a pipe has taken or is still owed, in order. -/
def connectNotes (pipe : Pipe) : List Note := (pipe.sent ++ pipe.backlog).filter Note.isConnected

/-- The notes of the answers meant for one core. -/
def notesFor (answers : List Answer) (core : Nat) : List Note :=
  (answers.filter fun a => a.job.core == core).map Answer.note

/-- A pipe that never gave a note up has every note of its core, and no pipe has one twice. -/
def Noted (answers : List Answer) (core : Nat) (pipe : Pipe) : Prop :=
  (connectNotes pipe).Sublist (notesFor answers core) ∧
    (pipe.cleared = false → connectNotes pipe = notesFor answers core)

def AllNoted (answers : List Answer) (pipes : List Pipe) : Prop :=
  ∀ (core : Nat) (pipe : Pipe), pipes[core]? = some pipe → Noted answers core pipe

def pushAll (pipes : List Pipe) (answers : List Answer) : List Pipe :=
  answers.foldl (fun pipes a => push pipes a.job.core a.note) pipes

theorem fds_push (pipes : List Pipe) (core : Nat) (note : Note) :
    (push pipes core note).map (·.fd) = pipes.map (·.fd) := by
  refine List.ext_getElem? fun i => ?_
  rw [List.getElem?_map, List.getElem?_map, push, List.getElem?_modify]
  cases pipes[i]? with
  | none => rfl
  | some pipe => by_cases h : core = i <;> simp [h]

theorem fds_pushAll (pipes : List Pipe) (answers : List Answer) :
    (pushAll pipes answers).map (·.fd) = pipes.map (·.fd) := by
  induction answers generalizing pipes with
  | nil => rfl
  | cons a answers ih =>
      rw [pushAll, List.foldl_cons]
      exact (ih _).trans (fds_push pipes a.job.core a.note)

theorem getElem?_pushAll (pipes : List Pipe) (answers : List Answer) (core : Nat) :
    (pushAll pipes answers)[core]? = pipes[core]?.map fun pipe =>
      { pipe with backlog := pipe.backlog ++ notesFor answers core } := by
  induction answers generalizing pipes with
  | nil => simp [pushAll, notesFor]
  | cons a answers ih =>
      rw [pushAll, List.foldl_cons]
      refine (ih _).trans ?_
      rw [push, List.getElem?_modify]
      cases pipes[core]? with
      | none => rfl
      | some pipe => by_cases h : a.job.core = core <;> simp [notesFor, h]

theorem filter_notesFor (answers : List Answer) (core : Nat) :
    (notesFor answers core).filter Note.isConnected = notesFor answers core := by
  rw [List.filter_eq_self]
  intro note hnote
  obtain ⟨a, -, rfl⟩ := List.mem_map.mp hnote
  rfl

theorem notesFor_append (answers more : List Answer) (core : Nat) :
    notesFor (answers ++ more) core = notesFor answers core ++ notesFor more core := by
  rw [notesFor, List.filter_append, List.map_append]
  rfl

theorem Noted.push {answers : List Answer} {core : Nat} {pipe : Pipe}
    (h : Noted answers core pipe) (more : List Answer) :
    Noted (answers ++ more) core
      { pipe with backlog := pipe.backlog ++ notesFor more core } := by
  have hnotes : connectNotes { pipe with backlog := pipe.backlog ++ notesFor more core } =
      connectNotes pipe ++ notesFor more core := by
    simp only [connectNotes, ← List.append_assoc, List.filter_append, filter_notesFor]
  unfold Noted
  rw [hnotes, notesFor_append]
  exact ⟨h.1.append (List.Sublist.refl _), fun hwhole => by rw [h.2 hwhole]⟩

theorem Noted.hint {answers : List Answer} {core : Nat} {pipe : Pipe}
    (h : Noted answers core pipe) : Noted answers core pipe.hint := by
  unfold Pipe.hint
  split
  · rename_i hempty
    have hnotes : connectNotes { pipe with backlog := [.tick] } = connectNotes pipe := by
      simp [connectNotes, List.isEmpty_iff.mp hempty, Note.isConnected]
    unfold Noted
    rw [hnotes]
    exact h
  · exact h

/-- What a pipe took moves from its queue; only one that gave up loses what it was owed. -/
theorem Noted.flush {answers : List Answer} {core : Nat} (blocking : Bool)
    (results : List WriteResult) (attempts : Nat) {pipe : Pipe} (h : Noted answers core pipe) :
    Noted answers core (flushPipe blocking results attempts pipe) := by
  induction results generalizing attempts pipe with
  | nil => exact h
  | cons r rest ih =>
      cases hqueue : pipe.backlog with
      | nil =>
          simp only [flushPipe, hqueue]
          exact h
      | cons note queue =>
          have hcleared : Noted answers core { pipe with backlog := [], cleared := true } := by
            refine ⟨List.Sublist.trans ?_ h.1, fun hwhole => by cases hwhole⟩
            simp [connectNotes]
          cases r with
          | whole =>
              simp only [flushPipe, hqueue]
              have hnotes : connectNotes { pipe with
                  backlog := queue, sent := pipe.sent ++ [note] } = connectNotes pipe := by
                simp [connectNotes, hqueue]
              refine ih attempts ?_
              unfold Noted
              rw [hnotes]
              exact h
          | short =>
              simp only [flushPipe, hqueue]
              exact hcleared
          | wouldBlock =>
              simp only [flushPipe, hqueue]
              split
              · exact h
              · exact ih (attempts + 1) h
          | failed =>
              simp only [flushPipe, hqueue]
              exact hcleared

theorem fd_flushPipe (blocking : Bool) (results : List WriteResult) (attempts : Nat)
    (pipe : Pipe) : (flushPipe blocking results attempts pipe).fd = pipe.fd := by
  induction results generalizing attempts pipe with
  | nil => rfl
  | cons r rest ih =>
      cases hqueue : pipe.backlog with
      | nil => simp only [flushPipe, hqueue]
      | cons note queue =>
          cases r with
          | whole =>
              simp only [flushPipe, hqueue]
              exact ih attempts _
          | short => simp only [flushPipe, hqueue]
          | wouldBlock =>
              simp only [flushPipe, hqueue]
              split
              · rfl
              · exact ih (attempts + 1) pipe
          | failed => simp only [flushPipe, hqueue]

theorem fds_flushAll (blocking : Bool) (writes : Nat → List WriteResult) (pipes : List Pipe) :
    (flushAll blocking writes pipes).map (·.fd) = pipes.map (·.fd) := by
  refine List.ext_getElem? fun i => ?_
  rw [List.getElem?_map, List.getElem?_map, flushAll, List.getElem?_mapIdx, Option.map_map]
  refine congrArg (fun f => Option.map f pipes[i]?) (funext fun pipe => ?_)
  exact fd_flushPipe blocking (writes i) 0 pipe

theorem AllNoted.pushAll {answers : List Answer} {pipes : List Pipe} (h : AllNoted answers pipes)
    (new : List Answer) : AllNoted (answers ++ new) (pushAll pipes new) := by
  intro core pipe hpipe
  rw [getElem?_pushAll, Option.map_eq_some_iff] at hpipe
  obtain ⟨before, hbefore, rfl⟩ := hpipe
  exact (h core before hbefore).push new

theorem AllNoted.hint {answers : List Answer} {pipes : List Pipe} (h : AllNoted answers pipes) :
    AllNoted answers (pipes.map Pipe.hint) := by
  intro core pipe hpipe
  rw [List.getElem?_map, Option.map_eq_some_iff] at hpipe
  obtain ⟨before, hbefore, rfl⟩ := hpipe
  exact (h core before hbefore).hint

theorem AllNoted.flushAll {answers : List Answer} {pipes : List Pipe} (h : AllNoted answers pipes)
    (blocking : Bool) (writes : Nat → List WriteResult) :
    AllNoted answers (flushAll blocking writes pipes) := by
  intro core pipe hpipe
  rw [Helper.flushAll, List.getElem?_mapIdx, Option.map_eq_some_iff] at hpipe
  obtain ⟨before, hbefore, rfl⟩ := hpipe
  exact (h core before hbefore).flush blocking (writes core) 0

theorem fds_hint (pipes : List Pipe) :
    (pipes.map Pipe.hint).map (·.fd) = pipes.map (·.fd) := by
  rw [List.map_map]
  refine List.map_congr_left fun pipe _ => ?_
  simp only [Function.comp, Pipe.hint]
  split <;> rfl

end Pipes

section Retiring

theorem verdict_zero {now : Nat} {seen : Option PollFd} {socket : SocketError} {job : Job}
    (h : verdict now seen socket job = some 0) :
    socket = .ok 0 ∧ ∃ p, seen = some p ∧ p.revents ≠ {} := by
  unfold verdict at h
  simp only at h
  split at h
  · cases h
  · rename_i hwait
    rw [Option.some.injEq] at h
    split at h
    · cases h
    · split at h
      · cases h
      · rename_i hready
        have hevents : revents seen ≠ {} := by
          intro hnone
          by_cases htimed : job.deadline ≤ now <;> simp_all
        refine ⟨?_, ?_⟩
        · split at h
          · rfl
          · rw [h]
          · rename_i e
            exact absurd h e.failed
          · cases h
        · cases seen with
          | none => exact absurd rfl hevents
          | some p => exact ⟨p, rfl, hevents⟩

/-- A job whose entry shows any event is answered. -/
theorem verdict_ready (now : Nat) {p : PollFd} (hp : p.revents ≠ {}) (socket : SocketError)
    (job : Job) : ∃ err, verdict now (some p) socket job = some err := by
  unfold verdict
  simp only [revents, hp, false_and, if_false]
  exact ⟨_, rfl⟩

theorem swapRemove_middle {α : Type} (front : List α) (x : α) (tail : List α) :
    ∃ tail', swapRemove (front ++ x :: tail) front.length = front ++ tail' ∧ tail'.Perm tail := by
  induction tail using List.reverseRecOn with
  | nil => exact ⟨[], by simp [swapRemove], List.Perm.refl _⟩
  | append_singleton tail y _ =>
      refine ⟨y :: tail, ?_, (List.perm_append_singleton y tail).symm⟩
      have hcut : front ++ x :: (tail ++ [y]) = (front ++ x :: tail) ++ [y] := by simp
      have hset : (front ++ x :: (tail ++ [y])).set front.length y =
          (front ++ y :: tail) ++ [y] := by simp
      rw [swapRemove, hcut, List.getLast?_concat, ← hcut]
      simp only [hset, List.dropLast_concat]

/-- What the walk over `front` makes of a state whose jobs end in `tail`. -/
structure Retired (fds : List PollFd) (pass : Pass) (front tail : List Job) (s s' : State)
    (new : List Answer) : Prop where
  state : s' = { s with
    pending := s'.pending
    pipes := pushAll s.pipes new
    answers := s.answers ++ new }
  balance : (s'.pending ++ new.map (·.job)).Perm (front ++ tail)
  judged : ∀ a, a ∈ new ↔ ∃ i job, front[i]? = some job ∧ answerAt fds pass i job = some a

theorem answerAt_job {fds : List PollFd} {pass : Pass} {i : Nat} {job : Job} {a : Answer}
    (h : answerAt fds pass i job = some a) : a.job = job := by
  obtain ⟨err, -, rfl⟩ := Option.map_eq_some_iff.mp h
  rfl

private theorem judged_snoc {fds : List PollFd} {pass : Pass} {front : List Job} {x : Job}
    (a : Answer) :
    (∃ i job, (front ++ [x])[i]? = some job ∧ answerAt fds pass i job = some a) ↔
      answerAt fds pass front.length x = some a ∨
        ∃ i job, front[i]? = some job ∧ answerAt fds pass i job = some a := by
  constructor
  · rintro ⟨i, job, hjob, ha⟩
    by_cases hi : i < front.length
    · rw [List.getElem?_append_left hi] at hjob
      exact .inr ⟨i, job, hjob, ha⟩
    · obtain ⟨hlt, -⟩ := List.getElem?_eq_some_iff.mp hjob
      rw [List.length_append, List.length_singleton] at hlt
      obtain rfl : i = front.length := by omega
      rw [List.getElem?_concat_length, Option.some.injEq] at hjob
      rw [← hjob] at ha
      exact .inl ha
  · rintro (ha | ⟨i, job, hjob, ha⟩)
    · exact ⟨front.length, x, List.getElem?_concat_length, ha⟩
    · obtain ⟨hi, -⟩ := List.getElem?_eq_some_iff.mp hjob
      exact ⟨i, job, by rw [List.getElem?_append_left hi, hjob], ha⟩

/-- The walk answers each job by the entry behind its index, whatever was removed before. -/
theorem retire_retired (fds : List PollFd) (pass : Pass) {front tail : List Job} {s : State}
    (h : s.pending = front ++ tail) :
    ∃ new, Retired fds pass front tail s (retire fds pass front.length s) new := by
  induction front using List.reverseRecOn generalizing tail s with
  | nil =>
      refine ⟨[], by simp [retire, pushAll], ?_, by simp⟩
      simp [retire, h]
  | append_singleton front x ih =>
      have hcut : s.pending = front ++ x :: tail := by rw [h, List.append_assoc]; rfl
      have hat : s.pending[front.length]? = some x := by
        rw [hcut, List.getElem?_append_right (Nat.le_refl _), Nat.sub_self]
        rfl
      rw [List.length_append, List.length_singleton, retire]
      cases ha : answerAt fds pass front.length x with
      | none =>
          have hone : retireOne fds pass front.length s = s := by
            simp only [retireOne, hat, ha]
          rw [hone]
          obtain ⟨new, hstate, hbalance, hjudged⟩ := ih hcut
          refine ⟨new, hstate, ?_, ?_⟩
          · rw [List.append_assoc]
            exact hbalance
          · intro a
            rw [judged_snoc, ha, hjudged]
            simp
      | some a =>
          obtain ⟨tail', htail', hperm⟩ := swapRemove_middle front x tail
          have hone : retireOne fds pass front.length s = { s with
              pending := front ++ tail'
              pipes := push s.pipes x.core a.note
              answers := s.answers ++ [a] } := by
            simp only [retireOne, hat, ha]
            rw [← htail', ← hcut]
          rw [hone]
          obtain ⟨new, hstate, hbalance, hjudged⟩ := ih (s := { s with
              pending := front ++ tail'
              pipes := push s.pipes x.core a.note
              answers := s.answers ++ [a] }) rfl
          have hjob := answerAt_job ha
          refine ⟨a :: new, ?_, ?_, ?_⟩
          · rw [hstate]
            simp only [pushAll, List.foldl_cons, hjob, List.append_assoc, List.singleton_append]
          · rw [List.map_cons, hjob]
            refine List.perm_middle.trans ((hbalance.cons x).trans ?_)
            rw [List.append_assoc]
            exact ((hperm.append_left front).cons x).trans List.perm_middle.symm
          · intro a'
            rw [judged_snoc, ha, List.mem_cons, hjudged, Option.some.injEq, eq_comm]

/-- The answer of a thread that is leaving. -/
def cancelled (job : Job) : Answer := ⟨job, ECANCELED, none, none⟩

theorem cancelAll_eq (jobs : List Job) (s : State) :
    cancelAll jobs s = { s with
      pending := []
      pipes := pushAll s.pipes (jobs.map cancelled)
      answers := s.answers ++ jobs.map cancelled } := by
  induction jobs generalizing s with
  | nil => simp [cancelAll, pushAll]
  | cons job jobs ih =>
      simp only [cancelAll, ih, List.map_cons, pushAll, List.foldl_cons, List.append_assoc]
      rfl

end Retiring

/-- An answer that went by nothing but its own descriptor's events. -/
structure OwnVerdict (a : Answer) : Prop where
  success : a.err = 0 → a.socket = some (.ok 0) ∧
    ∃ p, a.seen = some p ∧ p.fd = a.job.fd ∧ p.revents ≠ {}
  unswayed : ∀ p, a.seen = some p → p.revents ≠ {} → p.fd = a.job.fd

/-- Every job handed over waits or has its one note, and every note went by its own descriptor. -/
structure Answered (s : State) : Prop where
  conserved : s.handed.Perm (s.jobs ++ s.pending ++ s.answers.map (·.job))
  noted : AllNoted s.answers s.pipes
  own : ∀ a ∈ s.answers, OwnVerdict a

/-- No pipe with events stands where the loop looks for a job received since the poll. -/
def Unshifted (s : State) : Action → Prop
  | .settle _ => ∀ fds, s.polled = some fds → s.stopping fds = false →
      ∀ (k : Nat) (job : Job) (p : PollFd), s.jobs[k]? = some job →
        fds[s.pending.length + 1 + k]? = some p → p.revents = {}
  | _ => True

section Runs

/-- The poll array against the jobs it was built for: theirs first, then pipes only. -/
structure Polled (s : State) (fds : List PollFd) : Prop where
  jobs : ∀ (i : Nat) (job : Job), s.pending[i]? = some job →
    ∃ p, fds[i + 1]? = some p ∧ p.fd = job.fd
  pipes : ∀ (k : Nat) (p : PollFd), fds[s.pending.length + 1 + k]? = some p →
    p.fd ∈ s.pipes.map (·.fd)

structure Inv (s : State) : Prop where
  foreign : ∀ job ∈ s.jobs ++ s.pending, job.fd ∉ s.pipes.map (·.fd)
  conserved : s.handed.Perm (s.jobs ++ s.pending ++ s.answers.map (·.job))
  noted : AllNoted s.answers s.pipes
  polled : ∀ fds, s.polled = some fds → Polled s fds
  halted : s.stopped = true → s.polled = none

theorem inv_start (wake : Fd) (writers : List Fd) (tick nextTick : Nat) :
    Inv (start wake writers tick nextTick) where
  foreign := by simp [start]
  conserved := by simp [start]
  noted := by
    intro core pipe hpipe
    rw [start, List.getElem?_map, Option.map_eq_some_iff] at hpipe
    obtain ⟨fd, -, rfl⟩ := hpipe
    exact ⟨List.Sublist.refl _, fun _ => rfl⟩
  polled := by simp [start]
  halted := fun _ => rfl

/-- The array a poll answered, whatever it answered. -/
theorem polled_pollArray (s : State) (results : List Revents)
    (hlen : results.length = s.pollArray.length) :
    Polled s (s.pollArray.zipWith (fun p r => { p with revents := r }) results) := by
  have hfd : ∀ (i : Nat) (p : PollFd),
      (s.pollArray.zipWith (fun p r => { p with revents := r }) results)[i]? = some p →
        ∃ q, s.pollArray[i]? = some q ∧ q.fd = p.fd := by
    intro i p hp
    rw [List.getElem?_zipWith] at hp
    cases hq : s.pollArray[i]? with
    | none => simp [hq] at hp
    | some q =>
        cases hr : results[i]? with
        | none => simp [hq, hr] at hp
        | some r =>
            simp only [hq, hr, Option.some.injEq] at hp
            exact ⟨q, rfl, by rw [← hp]⟩
  constructor
  · intro i job hjob
    obtain ⟨hi, hget⟩ := List.getElem?_eq_some_iff.mp hjob
    have hentry : s.pollArray[i + 1]? = some ⟨job.fd, .pollout, {}⟩ := by
      rw [State.pollArray, List.cons_append, List.getElem?_cons_succ,
        List.getElem?_append_left (by rw [List.length_map]; exact hi), List.getElem?_map, hjob]
      rfl
    obtain ⟨hlt, -⟩ := List.getElem?_eq_some_iff.mp hentry
    have hresult := List.getElem?_eq_getElem (hlen ▸ hlt)
    refine ⟨_, by rw [List.getElem?_zipWith, hentry, hresult], rfl⟩
  · intro k p hp
    obtain ⟨q, hq, hsame⟩ := hfd _ p hp
    rw [State.pollArray, List.cons_append, Nat.add_right_comm, List.getElem?_cons_succ,
      List.getElem?_append_right (by rw [List.length_map]; omega), List.length_map,
      Nat.add_sub_cancel_left, List.getElem?_map, Option.map_eq_some_iff] at hq
    obtain ⟨pipe, hpipe, rfl⟩ := hq
    rw [← hsame]
    exact List.mem_map_of_mem (List.mem_filter.mp (List.mem_of_getElem? hpipe)).1

/-- What a whole pass makes of a state: the jobs there were, less those it answered. -/
structure Settled (s s' : State) (new : List Answer) : Prop where
  jobs : s'.jobs = []
  handed : s'.handed = s.handed
  polled : s'.polled = none
  fds : s'.pipes.map (·.fd) = s.pipes.map (·.fd)
  answers : s'.answers = s.answers ++ new
  balance : (s'.pending ++ new.map (·.job)).Perm (s.pending ++ s.jobs)
  noted : AllNoted s.answers s.pipes → AllNoted (s.answers ++ new) s'.pipes

theorem settle_stopping (s : State) {fds : List PollFd} (pass : Pass)
    (hstop : s.stopping fds = true) :
    Settled s (s.settle fds pass) ((s.pending ++ s.jobs).map cancelled) := by
  have hsettle : s.settle fds pass = { s with
      jobs := []
      polled := none
      stopped := true
      pending := []
      pipes := flushAll true pass.writes
        (pushAll s.pipes ((s.pending ++ s.jobs).map cancelled))
      answers := s.answers ++ (s.pending ++ s.jobs).map cancelled } := by
    simp only [State.settle, hstop, if_true, cancelAll_eq]
    rfl
  rw [hsettle]
  refine ⟨rfl, rfl, rfl, ?_, rfl, ?_, fun h => (h.pushAll _).flushAll _ _⟩
  · rw [fds_flushAll, fds_pushAll]
  · have hjobs : ((s.pending ++ s.jobs).map cancelled).map (·.job) = s.pending ++ s.jobs := by
      rw [List.map_map]
      exact List.map_id _
    rw [hjobs]
    exact List.Perm.refl _

theorem settle_running (s : State) {fds : List PollFd} (pass : Pass)
    (hrun : s.stopping fds = false) :
    ∃ new, Settled s (s.settle fds pass) new ∧
      ∀ a, a ∈ new ↔
        ∃ i job, (s.pending ++ s.jobs)[i]? = some job ∧ answerAt fds pass i job = some a := by
  have hreceived : s.receive.pending = (s.pending ++ s.jobs) ++ [] := (List.append_nil _).symm
  obtain ⟨new, hstate, hbalance, hjudged⟩ := retire_retired fds pass hreceived
  rw [List.append_nil] at hbalance
  refine ⟨new, ?_, hjudged⟩
  have hlen : s.receive.pending.length = (s.pending ++ s.jobs).length := rfl
  have hsettle : s.settle fds pass =
      { tickAll pass (retire fds pass (s.pending ++ s.jobs).length s.receive) with
        pipes := flushAll false pass.writes
          (tickAll pass (retire fds pass (s.pending ++ s.jobs).length s.receive)).pipes } := by
    simp only [State.settle, hrun, hlen]
    rfl
  rw [hsettle]
  generalize retire fds pass (s.pending ++ s.jobs).length s.receive = retired at hstate hbalance
  have hpipes : retired.pipes = pushAll s.pipes new := by rw [hstate]; rfl
  have hticked : (tickAll pass retired).pipes.map (·.fd) = s.pipes.map (·.fd) ∧
      (AllNoted s.answers s.pipes → AllNoted (s.answers ++ new) (tickAll pass retired).pipes) := by
    unfold tickAll
    split
    · rw [hpipes]
      exact ⟨(fds_hint _).trans (fds_pushAll _ _), fun h => (h.pushAll new).hint⟩
    · rw [hpipes]
      exact ⟨fds_pushAll _ _, fun h => h.pushAll new⟩
  have hsame : (tickAll pass retired).jobs = retired.jobs ∧
      (tickAll pass retired).handed = retired.handed ∧
      (tickAll pass retired).polled = retired.polled ∧
      (tickAll pass retired).answers = retired.answers ∧
      (tickAll pass retired).pending = retired.pending := by
    unfold tickAll
    split <;> exact ⟨rfl, rfl, rfl, rfl, rfl⟩
  obtain ⟨hjobs, hhanded, hpolled, hanswers, hpending⟩ := hsame
  refine ⟨?_, ?_, ?_, ?_, ?_, ?_, fun h => (hticked.2 h).flushAll _ _⟩
  · exact hjobs.trans (by rw [hstate]; rfl)
  · exact hhanded.trans (by rw [hstate]; rfl)
  · exact hpolled.trans (by rw [hstate]; rfl)
  · rw [fds_flushAll]
    exact hticked.1
  · exact hanswers.trans (by rw [hstate]; rfl)
  · show ((tickAll pass retired).pending ++ new.map (·.job)).Perm _
    rw [hpending]
    exact hbalance

theorem Inv.settled {s s' : State} (h : Inv s) {new : List Answer} (hs : Settled s s' new) :
    Inv s' := by
  refine ⟨?_, ?_, ?_, ?_, fun _ => hs.polled⟩
  · intro job hjob
    rw [hs.jobs, List.nil_append] at hjob
    rw [hs.fds]
    refine h.foreign job ?_
    have hin := hs.balance.subset (List.mem_append_left _ hjob)
    rcases List.mem_append.mp hin with hin | hin
    · exact List.mem_append_right _ hin
    · exact List.mem_append_left _ hin
  · -- What the pass answered left the pending jobs, and nothing else did.
    rw [hs.handed, hs.jobs, hs.answers, List.nil_append, List.map_append]
    have hmoved := hs.balance.append_left (s.answers.map (·.job))
    refine h.conserved.trans ?_
    refine (List.perm_append_comm.append_right _).trans ?_
    refine List.perm_append_comm.trans (hmoved.symm.trans ?_)
    rw [← List.append_assoc, ← List.append_assoc]
    exact List.perm_append_comm.append_right _
  · rw [hs.answers]
    exact hs.noted h.noted
  · intro fds hfds
    rw [hs.polled] at hfds
    cases hfds

theorem step_inv (s : State) (act : Action) (s' : State) (h : Inv s)
    (hstep : step s act = some s') : Inv s' := by
  cases act with
  | watch job =>
      simp only [step] at hstep
      split at hstep
      · rename_i hok
        cases hstep
        simp only [Bool.and_eq_true, State.hands, Bool.not_eq_true', List.contains_eq_mem,
          decide_eq_false_iff_not] at hok
        refine ⟨?_, ?_, h.noted, fun fds hfds => ?_, h.halted⟩
        · intro other hother
          rw [List.append_assoc] at hother
          rcases List.mem_append.mp hother with hother | hother
          · exact h.foreign other (List.mem_append_left _ hother)
          · rcases List.mem_cons.mp hother with rfl | hother
            · exact hok.2.2
            · exact h.foreign other (List.mem_append_right _ hother)
        · have hlast : ((s.pending ++ s.answers.map (·.job)) ++ [job]).Perm
              ([job] ++ (s.pending ++ s.answers.map (·.job))) := List.perm_append_comm
          have hmove := hlast.append_left s.jobs
          refine (h.conserved.append_right [job]).trans ?_
          simpa only [List.append_assoc] using hmove
        · obtain ⟨hjobs, hpipes⟩ := h.polled fds hfds
          exact ⟨hjobs, hpipes⟩
      · cases hstep
  | drop =>
      simp only [step] at hstep
      split at hstep
      · cases hstep
        refine ⟨h.foreign, h.conserved, h.noted, fun fds hfds => ?_, h.halted⟩
        obtain ⟨hjobs, hpipes⟩ := h.polled fds hfds
        exact ⟨hjobs, hpipes⟩
      · cases hstep
  | poll results =>
      simp only [step] at hstep
      split at hstep
      · rename_i hok
        cases hstep
        simp only [Bool.and_eq_true, Bool.not_eq_true', beq_iff_eq] at hok
        refine ⟨h.foreign, h.conserved, h.noted, fun fds hfds => ?_, fun hstop => ?_⟩
        · cases hfds
          obtain ⟨hjobs, hpipes⟩ := polled_pollArray s results hok.2
          exact ⟨hjobs, hpipes⟩
        · rw [hok.1.1] at hstop
          cases hstop
      · cases hstep
  | pollFailed =>
      simp only [step] at hstep
      split at hstep
      · rename_i hok
        cases hstep
        simp only [Bool.and_eq_true, Option.isNone_iff_eq_none] at hok
        refine ⟨h.foreign, h.conserved, h.noted, fun fds hfds => ?_, fun _ => hok.2⟩
        rw [hok.2] at hfds
        cases hfds
      · cases hstep
  | settle pass =>
      simp only [step] at hstep
      split at hstep
      · cases hstep
      · obtain ⟨fds, hfds, rfl⟩ := Option.map_eq_some_iff.mp hstep
        cases hstop : s.stopping fds with
        | true => exact h.settled (settle_stopping s pass hstop)
        | false =>
            obtain ⟨new, hsettled, -⟩ := settle_running s pass hstop
            exact h.settled hsettled

theorem ownVerdict_cancelled (job : Job) : OwnVerdict (cancelled job) where
  success := by
    intro herr
    cases herr
  unswayed := by
    intro p hp
    cases hp

/-- A job that was polled is answered by its own entry. -/
theorem ownVerdict_polled {s : State} {fds : List PollFd} (hpolled : Polled s fds) {pass : Pass}
    {i : Nat} {job : Job} (hjob : s.pending[i]? = some job) {a : Answer}
    (ha : answerAt fds pass i job = some a) : OwnVerdict a := by
  obtain ⟨err, hverdict, rfl⟩ := Option.map_eq_some_iff.mp ha
  obtain ⟨p, hp, hfd⟩ := hpolled.jobs i job hjob
  constructor
  · intro herr
    obtain rfl : err = 0 := herr
    obtain ⟨hsocket, q, hq, hevents⟩ := verdict_zero hverdict
    refine ⟨congrArg some hsocket, q, hq, ?_, hevents⟩
    obtain rfl : p = q := Option.some.inj (hp.symm.trans hq)
    exact hfd
  · intro q hq _
    obtain rfl : p = q := Option.some.inj (hp.symm.trans hq)
    exact hfd

/-- A job received since the poll is answered by its own events only where it finds none. -/
theorem ownVerdict_received {s : State} (h : Inv s) {fds : List PollFd}
    (hpolled : Polled s fds) {pass : Pass} {k : Nat} {job : Job} (hjob : s.jobs[k]? = some job) :
    (∀ a, answerAt fds pass (s.pending.length + k) job = some a → OwnVerdict a) ↔
      ∀ p, fds[s.pending.length + 1 + k]? = some p → p.revents = {} := by
  have hplace : fds[s.pending.length + k + 1]? = fds[s.pending.length + 1 + k]? := by
    rw [Nat.add_right_comm]
  constructor
  · intro hall p hp
    by_contra hevents
    obtain ⟨err, herr⟩ :=
      verdict_ready pass.now hevents (pass.sockets (s.pending.length + k)) job
    have hanswer : answerAt fds pass (s.pending.length + k) job =
        some ⟨job, err, some p, some (pass.sockets (s.pending.length + k))⟩ := by
      rw [answerAt, hplace, hp, herr]
      rfl
    have hfd := (hall _ hanswer).unswayed p rfl hevents
    have hpipe := hpolled.pipes k p hp
    rw [hfd] at hpipe
    exact h.foreign job (List.mem_append_left _ (List.mem_of_getElem? hjob)) hpipe
  · intro hnone a ha
    obtain ⟨err, hverdict, rfl⟩ := Option.map_eq_some_iff.mp ha
    constructor
    · intro herr
      obtain rfl : err = 0 := herr
      obtain ⟨-, q, hq, hevents⟩ := verdict_zero hverdict
      rw [hplace] at hq
      exact absurd (hnone q hq) hevents
    · intro q hq hevents
      rw [hplace] at hq
      exact absurd (hnone q hq) hevents

/-- A pass gives own verdicts exactly when no pipe with events stands in a job's place. -/
theorem settle_own {s : State} (h : Inv s) {fds : List PollFd} (hpolled : Polled s fds)
    (pass : Pass) :
    (∀ a, (∃ i job, (s.pending ++ s.jobs)[i]? = some job ∧ answerAt fds pass i job = some a) →
        OwnVerdict a) ↔
      ∀ (k : Nat) (job : Job) (p : PollFd), s.jobs[k]? = some job →
        fds[s.pending.length + 1 + k]? = some p → p.revents = {} := by
  constructor
  · intro hall k job p hjob hp
    refine (@ownVerdict_received s h fds hpolled pass k job hjob).mp (fun a ha => ?_) p hp
    refine hall a ⟨s.pending.length + k, job, ?_, ha⟩
    rw [List.getElem?_append_right (Nat.le_add_right _ _), Nat.add_sub_cancel_left, hjob]
  · rintro hnone a ⟨i, job, hjob, ha⟩
    by_cases hi : i < s.pending.length
    · rw [List.getElem?_append_left hi] at hjob
      exact ownVerdict_polled hpolled hjob ha
    · obtain ⟨k, rfl⟩ := Nat.exists_eq_add_of_le (Nat.not_lt.mp hi)
      rw [List.getElem?_append_right (Nat.le_add_right _ _), Nat.add_sub_cancel_left] at hjob
      exact (ownVerdict_received h hpolled hjob).mpr (fun p => hnone k job p hjob) a ha

theorem Inv.answered {s : State} (h : Inv s) (hown : ∀ a ∈ s.answers, OwnVerdict a) :
    Answered s := ⟨h.conserved, h.noted, hown⟩

theorem step_answered (s : State) (act : Action) (s' : State) (h : Inv s) (hgood : Answered s)
    (hstep : step s act = some s') : Answered s' ↔ Unshifted s act := by
  have hinv := step_inv s act s' h hstep
  cases act with
  | settle pass =>
      simp only [step] at hstep
      split at hstep
      · cases hstep
      · obtain ⟨fds, hfds, rfl⟩ := Option.map_eq_some_iff.mp hstep
        have hsame : Unshifted s (.settle pass) ↔ (s.stopping fds = false →
            ∀ (k : Nat) (job : Job) (p : PollFd), s.jobs[k]? = some job →
              fds[s.pending.length + 1 + k]? = some p → p.revents = {}) := by
          simp only [Unshifted, hfds, Option.some.injEq, forall_eq']
        rw [hsame]
        cases hstop : s.stopping fds with
        | true =>
            refine ⟨fun _ hrun => (by cases hrun), fun _ => hinv.answered ?_⟩
            rw [(settle_stopping s pass hstop).answers]
            intro a ha
            rcases List.mem_append.mp ha with ha | ha
            · exact hgood.own a ha
            · obtain ⟨job, -, rfl⟩ := List.mem_map.mp ha
              exact ownVerdict_cancelled job
        | false =>
            obtain ⟨new, hsettled, hjudged⟩ := settle_running s pass hstop
            rw [← settle_own h (h.polled fds hfds) pass]
            constructor
            · intro hanswered _ a ha
              refine hanswered.own a ?_
              rw [hsettled.answers]
              exact List.mem_append_right _ ((hjudged a).mpr ha)
            · intro hall
              refine hinv.answered fun a ha => ?_
              rw [hsettled.answers] at ha
              rcases List.mem_append.mp ha with ha | ha
              · exact hgood.own a ha
              · exact hall rfl a ((hjudged a).mp ha)
  | watch job =>
      refine ⟨fun _ => trivial, fun _ => hinv.answered ?_⟩
      simp only [step] at hstep
      split at hstep
      · cases hstep
        exact hgood.own
      · cases hstep
  | drop =>
      refine ⟨fun _ => trivial, fun _ => hinv.answered ?_⟩
      simp only [step] at hstep
      split at hstep
      · cases hstep
        exact hgood.own
      · cases hstep
  | poll results =>
      refine ⟨fun _ => trivial, fun _ => hinv.answered ?_⟩
      simp only [step] at hstep
      split at hstep
      · cases hstep
        exact hgood.own
      · cases hstep
  | pollFailed =>
      refine ⟨fun _ => trivial, fun _ => hinv.answered ?_⟩
      simp only [step] at hstep
      split at hstep
      · cases hstep
        exact hgood.own
      · cases hstep

theorem unshifted_of_none (s : State) (act : Action) (h : Inv s) (hstep : step s act = none) :
    Unshifted s act := by
  cases act with
  | settle pass =>
      intro fds hfds
      cases hstop : s.stopped with
      | true =>
          rw [h.halted hstop] at hfds
          cases hfds
      | false => simp [step, hstop, hfds] at hstep
  | watch job => exact trivial
  | drop => exact trivial
  | poll results => exact trivial
  | pollFailed => exact trivial

/-- Over any interleaving, every note is the one its descriptor's own events called for exactly
when no job received since a poll is looked up under a pipe that had events. -/
theorem notes_answered_iff (wake : Fd) (writers : List Fd) (tick nextTick : Nat)
    (acts : List Action) :
    Always step Answered (start wake writers tick nextTick) acts ↔
      Meets step Unshifted (start wake writers tick nextTick) acts := by
  have hinv := inv_start wake writers tick nextTick
  refine always_iff_meets step_inv (fun s act h => unshifted_of_none s act h) step_answered hinv
    (hinv.answered ?_) acts
  intro a ha
  exact (List.not_mem_nil ha).elim

end Runs

section Shifted

/-- A pass in which every socket is clean, and which writes what its argument says. -/
def cleanPass (now : Nat) (writes : List WriteResult) : Pass :=
  ⟨now, fun _ => .ok 0, now, now, fun _ => writes⟩

/-- A core's pipe is full when a tick is due, and drains as the core dials: the job received
behind the poll is read in the pipe's place. -/
def shiftedRun : List Action :=
  [.poll [{}], .settle (cleanPass 100 [.wouldBlock]),
    .poll [{}, { pollout := true }], .watch ⟨9, 0, 5000⟩, .settle (cleanPass 150 [.whole])]

theorem shifted_success :
    ∃ s, run step (start 3 [5] 100 100) shiftedRun = some s ∧
      ⟨⟨9, 0, 5000⟩, 0, some ⟨5, .pollout, { pollout := true }⟩, some (.ok 0)⟩ ∈ s.answers :=
  ⟨_, rfl, by decide⟩

/-- The note says the connect succeeded, on the word of another descriptor. -/
theorem pipe_judges_job :
    ¬ Always step Answered (start 3 [5] 100 100) shiftedRun := by
  intro h
  obtain ⟨s, hrun, hanswer⟩ := shifted_success
  have hown := (good_of_always h hrun).own _ hanswer
  have hfd := hown.unswayed ⟨5, .pollout, { pollout := true }⟩ rfl (by decide)
  revert hfd
  decide

end Shifted

end Ramjet.Engine.HelperNotes
