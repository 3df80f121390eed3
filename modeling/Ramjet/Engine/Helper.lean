/- digest: The helper thread: jobs received, one poll over them, and a note for each that ends. -/

import Mathlib.Data.List.Basic
import Ramjet.Base.Machine

set_option autoImplicit false
set_option relaxedAutoImplicit false

namespace Ramjet.Engine.Helper

/-- A raw descriptor number. -/
abbrev Fd := Int

def EIO : Int := 5

def EBADF : Int := 9

def ECONNRESET : Int := 104

def ETIMEDOUT : Int := 110

def ECANCELED : Int := 125

/-- The errno of a call that failed. -/
structure OsError where
  code : Int
  failed : code ≠ 0
  deriving DecidableEq

/-- What `getsockopt(SO_ERROR)` answered; a failure may lack an errno. -/
abbrev SocketError := Except (Option OsError) Int

inductive Note where
  | tick
  | connected (fd : Fd) (err : Int)
  deriving DecidableEq

def Note.isConnected : Note → Bool
  | .tick => false
  | .connected _ _ => true

/-- A connect the helper is watching. -/
structure Job where
  fd : Fd
  core : Nat
  deadline : Nat
  deriving DecidableEq

structure Revents where
  pollin : Bool := false
  pollout : Bool := false
  pollerr : Bool := false
  pollhup : Bool := false
  pollnval : Bool := false
  deriving DecidableEq

inductive Events where
  | pollin
  | pollout
  deriving DecidableEq

structure PollFd where
  fd : Fd
  events : Events
  revents : Revents := {}
  deriving DecidableEq

/-- What the loop answered a job with, and what it went by. -/
structure Answer where
  job : Job
  err : Int
  seen : Option PollFd
  socket : Option SocketError
  deriving DecidableEq

def Answer.note (a : Answer) : Note := .connected a.job.fd a.err

/-- The notify pipe of one core: what it owes, what the pipe took, whether a note was given up. -/
structure Pipe where
  fd : Fd
  backlog : List Note := []
  sent : List Note := []
  cleared : Bool := false
  deriving DecidableEq

/-- What one write of a note came to. -/
inductive WriteResult where
  | whole
  | short
  | wouldBlock
  | failed
  deriving DecidableEq

/-- The thread between two system calls, with the jobs ever handed over and the answers given. -/
structure State where
  wake : Fd
  pipes : List Pipe
  tick : Nat
  nextTick : Nat
  jobs : List Job := []
  connected : Bool := true
  pending : List Job := []
  polled : Option (List PollFd) := none
  stopped : Bool := false
  handed : List Job := []
  answers : List Answer := []
  deriving DecidableEq

/-- What the calls of one pass answer: the clock, each socket by its place, and the writes. -/
structure Pass where
  now : Nat
  sockets : Nat → SocketError
  tickNow : Nat
  nextNow : Nat
  writes : Nat → List WriteResult

inductive Action where
  | watch (job : Job)
  | drop
  | poll (revents : List Revents)
  | pollFailed
  | settle (pass : Pass)

/-- The thread as `Helper::start` spawns it. -/
def start (wake : Fd) (writers : List Fd) (tick nextTick : Nat) : State where
  wake := wake
  pipes := writers.map fun fd => { fd := fd }
  tick := tick
  nextTick := nextTick

section Retiring

/-- `Vec::swap_remove`: the last element takes the place of the one removed. -/
def swapRemove {α : Type} (xs : List α) (i : Nat) : List α :=
  match xs.getLast? with
  | none => []
  | some last => (xs.set i last).dropLast

def push (pipes : List Pipe) (core : Nat) (note : Note) : List Pipe :=
  pipes.modify core fun pipe => { pipe with backlog := pipe.backlog ++ [note] }

def revents (seen : Option PollFd) : Revents :=
  match seen with
  | some p => p.revents
  | none => {}

/-- The error a connect is answered with, unless it is still to be waited for. -/
def verdict (now : Nat) (seen : Option PollFd) (socket : SocketError) (job : Job) : Option Int :=
  let timedOut : Bool := job.deadline ≤ now
  if revents seen = {} ∧ ¬ timedOut then none
  else
    some <|
      if (revents seen).pollnval then EBADF
      else if timedOut ∧ revents seen = {} then ETIMEDOUT
      else
        match socket with
        | .ok 0 => if (revents seen).pollerr || (revents seen).pollhup then ECONNRESET else 0
        | .ok code => code
        | .error (some e) => e.code
        | .error none => EIO

/-- The answer to the job at index `i`, whose poll entry is taken to be the one at `i + 1`. -/
def answerAt (fds : List PollFd) (pass : Pass) (i : Nat) (job : Job) : Option Answer :=
  (verdict pass.now fds[i + 1]? (pass.sockets i) job).map fun err =>
    ⟨job, err, fds[i + 1]?, some (pass.sockets i)⟩

def retireOne (fds : List PollFd) (pass : Pass) (i : Nat) (s : State) : State :=
  match s.pending[i]? with
  | none => s
  | some job =>
      match answerAt fds pass i job with
      | none => s
      | some a =>
          { s with
            pending := swapRemove s.pending i
            pipes := push s.pipes job.core a.note
            answers := s.answers ++ [a] }

/-- The walk over the jobs below `i`, backwards. -/
def retire (fds : List PollFd) (pass : Pass) : Nat → State → State
  | 0, s => s
  | i + 1, s => retire fds pass i (retireOne fds pass i s)

/-- Every connect outstanding is answered before the thread leaves. -/
def cancelAll : List Job → State → State
  | [], s => { s with pending := [] }
  | job :: rest, s =>
      let a : Answer := ⟨job, ECANCELED, none, none⟩
      cancelAll rest
        { s with pipes := push s.pipes job.core a.note, answers := s.answers ++ [a] }

end Retiring

section Flushing

/-- The writes of one queue, until it is empty or its pipe takes no more. -/
def flushPipe (blocking : Bool) : List WriteResult → Nat → Pipe → Pipe
  | [], _, pipe => pipe
  | r :: rest, attempts, pipe =>
      match pipe.backlog with
      | [] => pipe
      | note :: queue =>
          match r with
          | .whole =>
              flushPipe blocking rest attempts
                { pipe with backlog := queue, sent := pipe.sent ++ [note] }
          | .short => { pipe with backlog := [], cleared := true }
          | .wouldBlock =>
              if !blocking || attempts + 1 > 100 then pipe
              else flushPipe blocking rest (attempts + 1) pipe
          | .failed => { pipe with backlog := [], cleared := true }

def flushAll (blocking : Bool) (writes : Nat → List WriteResult) (pipes : List Pipe) :
    List Pipe :=
  pipes.mapIdx fun core pipe => flushPipe blocking (writes core) 0 pipe

/-- A tick is a hint: only a core that is owed nothing gets one. -/
def Pipe.hint (pipe : Pipe) : Pipe :=
  if pipe.backlog.isEmpty then { pipe with backlog := [.tick] } else pipe

def tickAll (pass : Pass) (s : State) : State :=
  if s.nextTick ≤ pass.tickNow then
    { s with nextTick := pass.nextNow + s.tick, pipes := s.pipes.map Pipe.hint }
  else s

end Flushing

/-- The poll array: the wake pipe, then the jobs, then each pipe that owes something. -/
def State.pollArray (s : State) : List PollFd :=
  ⟨s.wake, .pollin, {}⟩ ::
    (s.pending.map fun job => ⟨job.fd, .pollout, {}⟩) ++
      (s.pipes.filter fun pipe => !pipe.backlog.isEmpty).map fun pipe => ⟨pipe.fd, .pollout, {}⟩

/-- A closed wake pipe, or a disconnected channel, says stop. -/
def State.stopping (s : State) (fds : List PollFd) : Bool :=
  let wake := revents fds[0]?
  wake.pollhup || wake.pollerr || wake.pollnval || !s.connected

/-- The jobs a pass judges: those that were polled, then those received since. -/
def State.receive (s : State) : State :=
  { s with pending := s.pending ++ s.jobs, jobs := [], polled := none }

/-- The rest of a pass, once the poll has returned. -/
def State.settle (s : State) (fds : List PollFd) (pass : Pass) : State :=
  let received := s.receive
  if s.stopping fds then
    let cancelled := cancelAll received.pending received
    { cancelled with pipes := flushAll true pass.writes cancelled.pipes, stopped := true }
  else
    let ticked := tickAll pass (retire fds pass received.pending.length received)
    { ticked with pipes := flushAll false pass.writes ticked.pipes }

/-- A core hands over a socket of its own, never a descriptor of the helper's. -/
def State.hands (s : State) (job : Job) : Bool :=
  job.core < s.pipes.length && !(s.pipes.map (·.fd)).contains job.fd

/-- One step of the thread or of a core; a stopped thread takes none. -/
def step (s : State) : Action → Option State
  | .watch job =>
      if !s.stopped && s.connected && s.hands job then
        some { s with jobs := s.jobs ++ [job], handed := s.handed ++ [job] }
      else none
  | .drop => if s.connected then some { s with connected := false } else none
  | .poll results =>
      if !s.stopped && s.polled.isNone && results.length == s.pollArray.length then
        some { s with polled := some (s.pollArray.zipWith (fun p r => { p with revents := r }) results) }
      else none
  | .pollFailed =>
      if !s.stopped && s.polled.isNone then some { s with stopped := true } else none
  | .settle pass =>
      if s.stopped then none else s.polled.map fun fds => s.settle fds pass

end Ramjet.Engine.Helper
