/- digest: Every run of calls on one core's idle pool, and where each descriptor is along it. -/

import Mathlib.Data.List.Nodup
import Ramjet.Base.Machine
import Ramjet.Engine.IdlePool

set_option autoImplicit false
set_option relaxedAutoImplicit false

namespace Ramjet.Engine.PoolRuns

open Ramjet.Base.AssocMap
open Ramjet.Base.Buckets
open Ramjet.Base.Machine
open Ramjet.Base.Net
open Ramjet.Engine.IdlePool

section Calls

inductive Call
  | take (addr : SocketAddr)
  | put (addr : SocketAddr) (fd : Fd) (now : Nat)
  | remove (addr : SocketAddr) (fd : Fd)
  | expire (now : Nat)
  | drain

inductive Answer
  | taken (fd : Option Fd)
  | offered (back : Option Fd)
  | removed (held : Bool)
  | gone (fds : List Fd)

def call (p : Pool) : Call → Answer × Pool
  | .take addr => (.taken (p.take addr).1, (p.take addr).2)
  | .put addr fd now => (.offered (p.put addr fd now).1, (p.put addr fd now).2)
  | .remove addr fd => (.removed (p.remove addr fd).1, (p.remove addr fd).2)
  | .expire now => (.gone (p.expire now).1, (p.expire now).2)
  | .drain => (.gone p.drain.1, p.drain.2)

/-- A pool and the calls made on it so far, the latest first. -/
structure Ledger where
  pool : Pool
  history : List (Call × Answer)

def start (maxIdlePerHost idleTimeout : Nat) : Ledger := ⟨Pool.new maxIdlePerHost idleTimeout, []⟩

def Ledger.after (l : Ledger) (c : Call) : Ledger :=
  ⟨(call l.pool c).2, (c, (call l.pool c).1) :: l.history⟩

/-- One call; a descriptor the pool holds is not offered to it again. -/
def step (l : Ledger) (c : Call) : Option Ledger :=
  match c with
  | .put _ fd _ => if fd ∈ l.pool.held.map (·.2) then none else some (l.after c)
  | _ => some (l.after c)

end Calls

section Shelf

/-- A descriptor as it was put into the pool. -/
structure Shelved where
  addr : SocketAddr
  fd : Fd
  since : Nat

def Shelved.idle (s : Shelved) : Idle := ⟨s.fd, s.since⟩

/-- What a call put into the pool. -/
def accepted : Call × Answer → List Shelved
  | (.put addr fd now, .offered none) => [⟨addr, fd, now⟩]
  | _ => []

/-- The descriptors a call gave out of the pool. -/
def returned : Call × Answer → List Fd
  | (.take _, .taken (some fd)) => [fd]
  | (.remove _ fd, .removed true) => [fd]
  | (_, .gone fds) => fds
  | _ => []

/-- What was put and not given out since, the latest first. -/
def outstanding : List (Call × Answer) → List Shelved
  | [] => []
  | e :: earlier =>
      accepted e ++ (outstanding earlier).filter fun s => !(returned e).contains s.fd

def shelf (xs : List Shelved) (addr : SocketAddr) : List Shelved := xs.filter (·.addr = addr)

theorem mem_shelf {xs : List Shelved} {addr : SocketAddr} {s : Shelved} :
    s ∈ shelf xs addr ↔ s ∈ xs ∧ s.addr = addr := by
  simp [shelf]

end Shelf

section Stacks

/-- The idle connections to one endpoint, the latest last. -/
def stack (p : Pool) (addr : SocketAddr) : List Idle := (get p.byEndpoint addr).getD []

theorem stack_file (p : Pool) (addr a : SocketAddr) (idle : List Idle) :
    stack (p.file addr idle) a = if a = addr then idle else stack p a := by
  unfold Pool.file stack
  cases idle with
  | nil =>
      dsimp only [List.isEmpty_nil, if_true]
      rw [if_pos rfl, get_without]
      by_cases h : a = addr <;> simp [h]
  | cons i rest =>
      dsimp only [List.isEmpty_cons]
      rw [if_neg Bool.false_ne_true, get_insert]
      by_cases h : a = addr <;> simp [h]

theorem take_of_stack {p : Pool} {addr : SocketAddr} {front : List Idle} {i : Idle}
    (h : stack p addr = front ++ [i]) : p.take addr = (some i.fd, p.file addr front) := by
  unfold stack at h
  unfold Pool.take
  cases hget : get p.byEndpoint addr with
  | none =>
      rw [hget] at h
      simp at h
  | some idle =>
      rw [hget, Option.getD_some] at h
      simp [h]

theorem take_of_empty {p : Pool} {addr : SocketAddr} (h : stack p addr = []) :
    p.take addr = (none, p) := by
  unfold stack at h
  unfold Pool.take
  cases hget : get p.byEndpoint addr with
  | none => rfl
  | some idle =>
      rw [hget, Option.getD_some] at h
      simp [h]

theorem put_answer (p : Pool) (addr : SocketAddr) (fd : Fd) (now : Nat) :
    (p.put addr fd now).1 =
      if p.maxIdlePerHost ≤ (stack p addr).length then some fd else none := by
  unfold Pool.put stack
  dsimp only
  split <;> rfl

theorem stack_put (p : Pool) (addr a : SocketAddr) (fd : Fd) (now : Nat) :
    stack (p.put addr fd now).2 a =
      if a = addr ∧ (stack p addr).length < p.maxIdlePerHost then stack p addr ++ [⟨fd, now⟩]
      else stack p a := by
  unfold Pool.put stack
  dsimp only
  by_cases hroom : p.maxIdlePerHost ≤ ((get p.byEndpoint addr).getD []).length
  · rw [if_pos hroom]
    dsimp only
    rw [if_neg (by omega), get_insert]
    by_cases h : a = addr
    · subst h
      simp
    · simp [h]
  · rw [if_neg hroom]
    dsimp only
    rw [get_insert]
    by_cases h : a = addr
    · have hlt : ((get p.byEndpoint addr).getD []).length < p.maxIdlePerHost := by omega
      simp [h, hlt]
    · simp [h]

theorem remove_of_stack {p : Pool} {addr : SocketAddr} {fd : Fd}
    (h : ∃ i ∈ stack p addr, i.fd = fd) :
    p.remove addr fd = (true, p.file addr ((stack p addr).eraseP fun i => i.fd == fd)) := by
  obtain ⟨i, hi, hfd⟩ := h
  unfold stack at hi ⊢
  unfold Pool.remove
  cases hget : get p.byEndpoint addr with
  | none =>
      rw [hget] at hi
      simp at hi
  | some idle =>
      rw [hget, Option.getD_some] at hi
      have hany : (idle.any fun i => i.fd == fd) = true :=
        List.any_eq_true.mpr ⟨i, hi, by simpa using hfd⟩
      simp [hany]

theorem remove_of_absent {p : Pool} {addr : SocketAddr} {fd : Fd}
    (h : ¬ ∃ i ∈ stack p addr, i.fd = fd) : p.remove addr fd = (false, p) := by
  unfold stack at h
  unfold Pool.remove
  cases hget : get p.byEndpoint addr with
  | none => rfl
  | some idle =>
      rw [hget, Option.getD_some] at h
      have hany : ¬ (idle.any fun i => i.fd == fd) = true := by
        intro hany
        obtain ⟨i, hi, hfd⟩ := List.any_eq_true.mp hany
        exact h ⟨i, hi, by simpa using hfd⟩
      simp [hany]

theorem stack_expire (p : Pool) (now : Nat) (a : SocketAddr) :
    stack (p.expire now).2 a = (stack p a).filter fun i => !p.expired now i :=
  getD_sift p.nodupKeys _ a

end Stacks

section Stocked

/-- What the calls so far say of a pool: its stacks are what was put and not given out since. -/
structure Stocked (maxIdlePerHost idleTimeout : Nat) (l : Ledger) : Prop where
  piled : ∀ addr, stack l.pool addr = ((shelf (outstanding l.history) addr).map Shelved.idle).reverse
  once : ((outstanding l.history).map (·.fd)).Nodup
  counted : List.Perm ((l.history.flatMap accepted).map (·.fd))
    (l.history.flatMap returned ++ (outstanding l.history).map (·.fd))
  room : ∀ addr, (stack l.pool addr).length ≤ maxIdlePerHost
  limit : l.pool.maxIdlePerHost = maxIdlePerHost
  timeout : l.pool.idleTimeout = idleTimeout

variable {maxIdlePerHost idleTimeout : Nat} {l : Ledger}

theorem stocked_start (maxIdlePerHost idleTimeout : Nat) :
    Stocked maxIdlePerHost idleTimeout (start maxIdlePerHost idleTimeout) :=
  ⟨fun _ => rfl, List.nodup_nil, List.Perm.refl _, fun _ => Nat.zero_le _, rfl, rfl⟩

theorem Stocked.mem_stack (h : Stocked maxIdlePerHost idleTimeout l) {addr : SocketAddr} {i : Idle} :
    i ∈ stack l.pool addr ↔
      ∃ s ∈ outstanding l.history, s.addr = addr ∧ s.fd = i.fd ∧ s.since = i.since := by
  rw [h.piled addr, List.mem_reverse, List.mem_map]
  constructor
  · rintro ⟨s, hs, rfl⟩
    rw [mem_shelf] at hs
    exact ⟨s, hs.1, hs.2, rfl, rfl⟩
  · rintro ⟨s, hs, haddr, hfd, hsince⟩
    refine ⟨s, mem_shelf.mpr ⟨hs, haddr⟩, ?_⟩
    cases i
    cases hfd
    cases hsince
    rfl

theorem Stocked.nodup_stack (h : Stocked maxIdlePerHost idleTimeout l) (addr : SocketAddr) :
    ((stack l.pool addr).map (·.fd)).Nodup := by
  have hsub : List.Sublist ((shelf (outstanding l.history) addr).map (·.fd))
      ((outstanding l.history).map (·.fd)) := List.Sublist.map _ List.filter_sublist
  rw [h.piled addr, List.map_reverse, List.nodup_reverse, List.map_map]
  exact hsub.nodup h.once

/-- A descriptor idle at one endpoint is idle at no other. -/
theorem Stocked.addr_unique (h : Stocked maxIdlePerHost idleTimeout l) {a b : SocketAddr}
    {i j : Idle} (hi : i ∈ stack l.pool a) (hj : j ∈ stack l.pool b) (hfd : i.fd = j.fd) : a = b := by
  obtain ⟨s, hs, rfl, hsfd, -⟩ := h.mem_stack.mp hi
  obtain ⟨t, ht, rfl, htfd, -⟩ := h.mem_stack.mp hj
  have heq : s = t := List.inj_on_of_nodup_map h.once hs ht (hsfd.trans (hfd.trans htfd.symm))
  rw [heq]

/-- What the pool holds is what was put and not given out since. -/
theorem Stocked.held_perm (h : Stocked maxIdlePerHost idleTimeout l) :
    List.Perm (entries l.pool.byEndpoint)
      ((outstanding l.history).map fun s => (s.addr, s.idle)) := by
  apply entries_perm_of_buckets l.pool.nodupKeys
  intro addr
  have hstack := h.piled addr
  unfold stack at hstack
  rw [hstack]
  apply (List.reverse_perm _).trans
  apply List.Perm.of_eq
  rw [List.filter_map, List.map_map]
  rfl

theorem eraseP_eq_filter {xs : List Idle} (h : (xs.map (·.fd)).Nodup) (fd : Fd) :
    (xs.eraseP fun i => i.fd == fd) = xs.filter fun i => !([fd] : List Fd).contains i.fd := by
  induction xs with
  | nil => rfl
  | cons i rest ih =>
      rw [List.map_cons, List.nodup_cons] at h
      by_cases hfd : i.fd = fd
      · subst hfd
        have hrest : rest.filter (fun j => !([i.fd] : List Fd).contains j.fd) = rest := by
          rw [List.filter_eq_self]
          intro j hj
          have hne : j.fd ≠ i.fd := fun heq => h.1 (heq ▸ List.mem_map_of_mem hj)
          simpa using hne
        rw [List.eraseP_cons_of_pos (by simp), List.filter_cons_of_neg (by simp), hrest]
      · rw [List.eraseP_cons_of_neg (by simpa using hfd), List.filter_cons_of_pos (by simpa using hfd),
          ih h.2]

/-- A call that gives descriptors out, and takes them off every stack. -/
theorem stocked_gone (h : Stocked maxIdlePerHost idleTimeout l) (c : Call) (fds : List Fd)
    (hnone : accepted (c, (call l.pool c).1) = [])
    (hfds : returned (c, (call l.pool c).1) = fds)
    (hheld : fds.Nodup ∧ ∀ fd ∈ fds, fd ∈ (outstanding l.history).map (·.fd))
    (hstacks : ∀ addr, stack (call l.pool c).2 addr =
      (stack l.pool addr).filter fun i => !fds.contains i.fd)
    (hlimits : (call l.pool c).2.maxIdlePerHost = l.pool.maxIdlePerHost ∧
      (call l.pool c).2.idleTimeout = l.pool.idleTimeout) :
    Stocked maxIdlePerHost idleTimeout (l.after c) := by
  have hout : outstanding (l.after c).history =
      (outstanding l.history).filter fun s => !fds.contains s.fd := by
    simp only [Ledger.after, outstanding, hnone, hfds, List.nil_append]
  constructor
  · intro addr
    have hcomm : shelf (outstanding (l.after c).history) addr =
        (shelf (outstanding l.history) addr).filter fun s => !fds.contains s.fd := by
      rw [hout]
      unfold shelf
      rw [List.filter_filter, List.filter_filter]
      congr 1
      funext s
      exact Bool.and_comm _ _
    rw [hcomm]
    have hmap : (shelf (outstanding l.history) addr).map Shelved.idle =
        (stack l.pool addr).reverse := by
      rw [h.piled addr, List.reverse_reverse]
    have hfilter : ((shelf (outstanding l.history) addr).filter fun s => !fds.contains s.fd).map
        Shelved.idle = ((shelf (outstanding l.history) addr).map Shelved.idle).filter
          fun i => !fds.contains i.fd := by
      rw [List.filter_map]
      rfl
    rw [hfilter, hmap, List.filter_reverse, List.reverse_reverse]
    exact hstacks addr
  · rw [hout]
    exact (List.Sublist.map _ List.filter_sublist).nodup h.once
  · rw [hout]
    have hacc : (l.after c).history.flatMap accepted = l.history.flatMap accepted := by
      simp [Ledger.after, hnone]
    have hret : (l.after c).history.flatMap returned = fds ++ l.history.flatMap returned := by
      simp [Ledger.after, hfds]
    have hsplit : List.Perm ((outstanding l.history).map (·.fd))
        (fds ++ ((outstanding l.history).filter fun s => !fds.contains s.fd).map (·.fd)) := by
      have hkept : ((outstanding l.history).filter fun s => !fds.contains s.fd).map (·.fd) =
          ((outstanding l.history).map (·.fd)).filter fun fd => !fds.contains fd := by
        rw [List.filter_map]
        rfl
      have hgone : List.Perm fds
          (((outstanding l.history).map (·.fd)).filter fun fd => fds.contains fd) := by
        rw [List.perm_ext_iff_of_nodup hheld.1 (h.once.filter _)]
        intro fd
        simp only [List.mem_filter, List.contains_iff_mem]
        exact ⟨fun hfd => ⟨hheld.2 fd hfd, hfd⟩, fun hfd => hfd.2⟩
      rw [hkept]
      exact (List.filter_append_perm (fun fd => fds.contains fd) _).symm.trans
        (hgone.symm.append_right _)
    rw [hacc, hret]
    exact h.counted.trans ((hsplit.append_left _).trans (by
      rw [← List.append_assoc]
      exact List.perm_append_comm.append_right _))
  · intro addr
    have hstack : stack (l.after c).pool addr = _ := hstacks addr
    rw [hstack]
    exact (List.length_filter_le _ _).trans (h.room addr)
  · exact hlimits.1.trans h.limit
  · exact hlimits.2.trans h.timeout

/-- A call that gives nothing out, and changes no stack. -/
theorem stocked_idle (h : Stocked maxIdlePerHost idleTimeout l) {c : Call}
    (hnone : accepted (c, (call l.pool c).1) = [])
    (hfds : returned (c, (call l.pool c).1) = [])
    (hstacks : ∀ addr, stack (call l.pool c).2 addr = stack l.pool addr)
    (hlimits : (call l.pool c).2.maxIdlePerHost = l.pool.maxIdlePerHost ∧
      (call l.pool c).2.idleTimeout = l.pool.idleTimeout) :
    Stocked maxIdlePerHost idleTimeout (l.after c) := by
  apply stocked_gone h _ _ hnone hfds ⟨List.nodup_nil, fun fd hfd => by simp at hfd⟩ ?_ hlimits
  intro addr
  rw [hstacks addr, eq_comm, List.filter_eq_self]
  intro i _
  rfl

theorem file_limits (p : Pool) (addr : SocketAddr) (idle : List Idle) :
    (p.file addr idle).maxIdlePerHost = p.maxIdlePerHost ∧
      (p.file addr idle).idleTimeout = p.idleTimeout := by
  unfold Pool.file
  split <;> exact ⟨rfl, rfl⟩

/-- One connection taken off the stack it is on leaves the other stacks as they were. -/
theorem stack_file_gone (h : Stocked maxIdlePerHost idleTimeout l) {addr : SocketAddr} {i : Idle}
    (hi : i ∈ stack l.pool addr) (a : SocketAddr) :
    stack (l.pool.file addr ((stack l.pool addr).eraseP fun j => j.fd == i.fd)) a =
      (stack l.pool a).filter fun j => !([i.fd] : List Fd).contains j.fd := by
  rw [stack_file]
  by_cases ha : a = addr
  · rw [if_pos ha, ha]
    exact eraseP_eq_filter (h.nodup_stack addr) i.fd
  · rw [if_neg ha, eq_comm, List.filter_eq_self]
    intro j hj
    have hne : j.fd ≠ i.fd := fun heq => ha (h.addr_unique hj hi heq)
    simpa using hne

theorem Stocked.outstanding_fd (h : Stocked maxIdlePerHost idleTimeout l) {addr : SocketAddr}
    {i : Idle} (hi : i ∈ stack l.pool addr) : i.fd ∈ (outstanding l.history).map (·.fd) := by
  obtain ⟨s, hs, -, hfd, -⟩ := h.mem_stack.mp hi
  exact hfd ▸ List.mem_map_of_mem hs

theorem eraseP_last {front : List Idle} {i : Idle} (h : ((front ++ [i]).map (·.fd)).Nodup) :
    ((front ++ [i]).eraseP fun j => j.fd == i.fd) = front := by
  rw [List.eraseP_append_right]
  · simp
  · intro j hj
    rw [List.map_append, List.nodup_append] at h
    have hne := h.2.2 j.fd (List.mem_map_of_mem hj) i.fd (by simp)
    simpa using hne

theorem stocked_take (h : Stocked maxIdlePerHost idleTimeout l) (addr : SocketAddr) :
    Stocked maxIdlePerHost idleTimeout (l.after (.take addr)) := by
  rcases List.eq_nil_or_concat (stack l.pool addr) with hempty | ⟨front, i, hstack⟩
  · have htake := take_of_empty hempty
    apply stocked_idle h rfl
    · simp [call, htake, returned]
    · intro a
      simp [call, htake]
    · simp [call, htake]
  · rw [List.concat_eq_append] at hstack
    have hi : i ∈ stack l.pool addr := by simp [hstack]
    have htake := take_of_stack hstack
    have hnodup := h.nodup_stack addr
    rw [hstack] at hnodup
    have hfile := stack_file_gone h hi
    rw [hstack, eraseP_last hnodup] at hfile
    apply stocked_gone h _ [i.fd] rfl
    · simp [call, htake, returned]
    · exact ⟨List.nodup_singleton _, fun fd hfd => List.mem_singleton.mp hfd ▸ h.outstanding_fd hi⟩
    · intro a
      simp only [call, htake]
      exact hfile a
    · simp only [call, htake]
      exact file_limits l.pool addr front

theorem stocked_remove (h : Stocked maxIdlePerHost idleTimeout l) (addr : SocketAddr) (fd : Fd) :
    Stocked maxIdlePerHost idleTimeout (l.after (.remove addr fd)) := by
  by_cases hheld : ∃ i ∈ stack l.pool addr, i.fd = fd
  · have hremove := remove_of_stack hheld
    obtain ⟨i, hi, rfl⟩ := hheld
    apply stocked_gone h _ [i.fd] rfl
    · simp [call, hremove, returned]
    · exact ⟨List.nodup_singleton _, fun fd hfd => List.mem_singleton.mp hfd ▸ h.outstanding_fd hi⟩
    · intro a
      simp only [call, hremove]
      exact stack_file_gone h hi a
    · simp only [call, hremove]
      exact file_limits l.pool addr _
  · have hremove := remove_of_absent hheld
    apply stocked_idle h rfl
    · simp [call, hremove, returned]
    · intro a
      simp [call, hremove]
    · simp [call, hremove]

/-- What an expiry or a drain names is held, each descriptor once. -/
theorem Stocked.entries_fds (h : Stocked maxIdlePerHost idleTimeout l)
    (test : SocketAddr × Idle → Bool) :
    (((entries l.pool.byEndpoint).filter test).map (·.2.fd)).Nodup ∧
      ∀ fd ∈ ((entries l.pool.byEndpoint).filter test).map (·.2.fd),
        fd ∈ (outstanding l.history).map (·.fd) := by
  have hperm := h.held_perm.map (·.2.fd)
  rw [List.map_map] at hperm
  have hall : ((entries l.pool.byEndpoint).map (·.2.fd)).Nodup := hperm.nodup_iff.mpr h.once
  refine ⟨(List.Sublist.map _ List.filter_sublist).nodup hall, ?_⟩
  intro fd hfd
  obtain ⟨e, he, rfl⟩ := List.mem_map.mp hfd
  exact hperm.mem_iff.mp (List.mem_map_of_mem (List.mem_filter.mp he).1)

theorem Stocked.mem_entries_fds (h : Stocked maxIdlePerHost idleTimeout l)
    (test : SocketAddr × Idle → Bool) {addr : SocketAddr} {i : Idle} (hi : i ∈ stack l.pool addr) :
    i.fd ∈ ((entries l.pool.byEndpoint).filter test).map (·.2.fd) ↔ test (addr, i) = true := by
  have hmem : (addr, i) ∈ entries l.pool.byEndpoint := by
    rw [mem_entries l.pool.nodupKeys]
    unfold stack at hi
    cases hget : get l.pool.byEndpoint addr with
    | none =>
        rw [hget] at hi
        simp at hi
    | some idle => exact ⟨idle, rfl, by rwa [hget, Option.getD_some] at hi⟩
  have hall : ((entries l.pool.byEndpoint).map (·.2.fd)).Nodup := by
    have hperm := h.held_perm.map (·.2.fd)
    rw [List.map_map] at hperm
    exact hperm.nodup_iff.mpr h.once
  constructor
  · intro hfd
    obtain ⟨e, he, heq⟩ := List.mem_map.mp hfd
    rw [List.mem_filter] at he
    rw [← List.inj_on_of_nodup_map hall he.1 hmem heq]
    exact he.2
  · intro htest
    exact List.mem_map.mpr ⟨(addr, i), List.mem_filter.mpr ⟨hmem, htest⟩, rfl⟩

theorem stocked_expire (h : Stocked maxIdlePerHost idleTimeout l) (now : Nat) :
    Stocked maxIdlePerHost idleTimeout (l.after (.expire now)) := by
  apply stocked_gone h (.expire now) (l.pool.expire now).1 rfl rfl
    (h.entries_fds fun e => l.pool.expired now e.2) ?_ ⟨rfl, rfl⟩
  intro a
  refine (stack_expire l.pool now a).trans (List.filter_congr fun i hi => ?_)
  have hgone := h.mem_entries_fds (fun e => l.pool.expired now e.2) hi
  rw [Bool.eq_iff_iff]
  simp only [Bool.not_eq_true', Bool.eq_false_iff, ne_eq, List.contains_iff_mem]
  exact (not_congr hgone).symm

theorem stocked_drain (h : Stocked maxIdlePerHost idleTimeout l) :
    Stocked maxIdlePerHost idleTimeout (l.after .drain) := by
  have hall := h.entries_fds fun _ => true
  rw [List.filter_true] at hall
  apply stocked_gone h .drain l.pool.drain.1 rfl rfl hall ?_ ⟨rfl, rfl⟩
  intro a
  have hnone : stack (call l.pool .drain).2 a = [] := rfl
  rw [hnone, eq_comm, List.filter_eq_nil_iff]
  intro i hi
  have hgone := (h.mem_entries_fds (fun _ => true) hi).mpr rfl
  rw [List.filter_true] at hgone
  rw [Bool.not_eq_true', Bool.eq_false_iff, ne_eq, not_not]
  exact List.contains_iff_mem.mpr hgone

theorem stocked_put (h : Stocked maxIdlePerHost idleTimeout l) {addr : SocketAddr} {fd : Fd}
    {now : Nat} (hfree : fd ∉ l.pool.held.map (·.2)) :
    Stocked maxIdlePerHost idleTimeout (l.after (.put addr fd now)) := by
  have hanswer := put_answer l.pool addr fd now
  have hstack := stack_put l.pool addr
  have hlimits : (l.pool.put addr fd now).2.maxIdlePerHost = l.pool.maxIdlePerHost ∧
      (l.pool.put addr fd now).2.idleTimeout = l.pool.idleTimeout := by
    unfold Pool.put
    dsimp only
    split <;> exact ⟨rfl, rfl⟩
  by_cases hroom : l.pool.maxIdlePerHost ≤ (stack l.pool addr).length
  · rw [if_pos hroom] at hanswer
    apply stocked_idle h
    · simp [call, hanswer, accepted]
    · simp [call, hanswer, returned]
    · intro a
      refine (hstack a fd now).trans (if_neg ?_)
      omega
    · exact hlimits
  · rw [if_neg hroom] at hanswer
    have hlt : (stack l.pool addr).length < l.pool.maxIdlePerHost := by omega
    have hout : outstanding (l.after (.put addr fd now)).history =
        ⟨addr, fd, now⟩ :: outstanding l.history := by
      simp [Ledger.after, outstanding, call, hanswer, accepted, returned]
    have hnew : ∀ a, stack (l.after (.put addr fd now)).pool a =
        if a = addr then stack l.pool addr ++ [⟨fd, now⟩] else stack l.pool a := by
      intro a
      refine (hstack a fd now).trans ?_
      simp only [hlt, and_true]
    have hheld : l.pool.held.map (·.2) = (entries l.pool.byEndpoint).map (·.2.fd) := by
      simp [Pool.held, Function.comp_def]
    have hperm := h.held_perm.map (·.2.fd)
    rw [List.map_map] at hperm
    rw [hheld, hperm.mem_iff] at hfree
    constructor
    · intro a
      rw [hnew a, hout]
      unfold shelf
      by_cases ha : a = addr
      · have hold := h.piled addr
        unfold shelf at hold
        rw [if_pos ha, ha, List.filter_cons_of_pos (by simp), List.map_cons, List.reverse_cons, hold]
        rfl
      · have hold := h.piled a
        unfold shelf at hold
        rw [if_neg ha, List.filter_cons_of_neg (by simpa using Ne.symm ha), hold]
    · rw [hout, List.map_cons, List.nodup_cons]
      exact ⟨hfree, h.once⟩
    · have hacc : (l.after (.put addr fd now)).history.flatMap accepted =
          ⟨addr, fd, now⟩ :: l.history.flatMap accepted := by
        simp [Ledger.after, call, hanswer, accepted]
      have hret : (l.after (.put addr fd now)).history.flatMap returned =
          l.history.flatMap returned := by
        simp [Ledger.after, call, hanswer, returned]
      rw [hacc, hret, hout, List.map_cons, List.map_cons]
      exact (h.counted.cons fd).trans List.perm_middle.symm
    · intro a
      rw [hnew a]
      by_cases ha : a = addr
      · rw [if_pos ha, List.length_append, List.length_singleton, ← h.limit]
        omega
      · rw [if_neg ha]
        exact h.room a
    · exact hlimits.1.trans h.limit
    · exact hlimits.2.trans h.timeout

/-- Every call keeps what the earlier ones say of the pool. -/
theorem stocked_step (h : Stocked maxIdlePerHost idleTimeout l) {c : Call} {l' : Ledger}
    (hstep : step l c = some l') : Stocked maxIdlePerHost idleTimeout l' := by
  cases c with
  | take addr =>
      cases hstep
      exact stocked_take h addr
  | put addr fd now =>
      simp only [step] at hstep
      split at hstep
      · cases hstep
      · rename_i hfree
        cases hstep
        exact stocked_put h hfree
  | remove addr fd =>
      cases hstep
      exact stocked_remove h addr fd
  | expire now =>
      cases hstep
      exact stocked_expire h now
  | drain =>
      cases hstep
      exact stocked_drain h

end Stocked

section Conservation

/-- Where every descriptor is, and what each call would answer now. -/
structure Conserved (maxIdlePerHost idleTimeout : Nat) (l : Ledger) : Prop where
  held : List.Perm l.pool.held ((outstanding l.history).map fun s => (s.addr, s.fd))
  once : (l.pool.held.map (·.2)).Nodup
  counted : List.Perm ((l.history.flatMap accepted).map (·.fd))
    (l.history.flatMap returned ++ l.pool.held.map (·.2))
  room : ∀ addr, (l.pool.held.filter (·.1 = addr)).length ≤ maxIdlePerHost
  take : ∀ addr, (l.pool.take addr).1 =
    ((outstanding l.history).find? (·.addr = addr)).map (·.fd)
  put : ∀ addr fd now, (l.pool.put addr fd now).1 =
    if maxIdlePerHost ≤ (l.pool.held.filter (·.1 = addr)).length then some fd else none
  remove : ∀ addr fd, (l.pool.remove addr fd).1 = true ↔ (addr, fd) ∈ l.pool.held
  expire : ∀ now, List.Perm (l.pool.expire now).1
    (((outstanding l.history).filter fun s => idleTimeout ≤ now - s.since).map (·.fd))
  young : ∀ now, List.Perm (l.pool.expire now).2.held
    (((outstanding l.history).filter fun s => now - s.since < idleTimeout).map
      fun s => (s.addr, s.fd))
  drain : List.Perm l.pool.drain.1 (l.pool.held.map (·.2))

variable {maxIdlePerHost idleTimeout : Nat} {l : Ledger}

private theorem held_outstanding (h : Stocked maxIdlePerHost idleTimeout l) :
    List.Perm l.pool.held ((outstanding l.history).map fun s => (s.addr, s.fd)) := by
  have hmap := h.held_perm.map fun e => (e.1, e.2.fd)
  rw [List.map_map] at hmap
  exact hmap

private theorem length_stack (h : Stocked maxIdlePerHost idleTimeout l) (addr : SocketAddr) :
    (l.pool.held.filter (·.1 = addr)).length = (stack l.pool addr).length := by
  rw [((held_outstanding h).filter _).length_eq, h.piled addr, List.filter_map]
  simp only [List.length_map, List.length_reverse]
  rfl

private theorem take_answer (h : Stocked maxIdlePerHost idleTimeout l) (addr : SocketAddr) :
    (l.pool.take addr).1 = ((outstanding l.history).find? (·.addr = addr)).map (·.fd) := by
  have hstack := h.piled addr
  have hfind : (outstanding l.history).find? (·.addr = addr) =
      (shelf (outstanding l.history) addr).head? := by
    unfold shelf
    exact List.head?_filter.symm
  rw [hfind]
  cases hshelf : shelf (outstanding l.history) addr with
  | nil =>
      rw [hshelf] at hstack
      rw [take_of_empty hstack]
      rfl
  | cons s rest =>
      rw [hshelf, List.map_cons, List.reverse_cons] at hstack
      rw [take_of_stack hstack]
      rfl

theorem conserved_of_stocked (h : Stocked maxIdlePerHost idleTimeout l) :
    Conserved maxIdlePerHost idleTimeout l := by
  have hfds : List.Perm (l.pool.held.map (·.2)) ((outstanding l.history).map (·.fd)) := by
    have hmap := (held_outstanding h).map (·.2)
    rw [List.map_map] at hmap
    exact hmap
  constructor
  · exact held_outstanding h
  · exact hfds.nodup_iff.mpr h.once
  · exact h.counted.trans (hfds.symm.append_left _)
  · intro addr
    rw [length_stack h]
    exact h.room addr
  · exact take_answer h
  · intro addr fd now
    rw [put_answer, length_stack h, h.limit]
  · intro addr fd
    rw [(held_outstanding h).mem_iff, List.mem_map]
    have hmem : (∃ i ∈ stack l.pool addr, i.fd = fd) ↔
        ∃ s ∈ outstanding l.history, (s.addr, s.fd) = (addr, fd) := by
      constructor
      · rintro ⟨i, hi, rfl⟩
        obtain ⟨s, hs, haddr, hfd, -⟩ := h.mem_stack.mp hi
        exact ⟨s, hs, by rw [haddr, hfd]⟩
      · rintro ⟨s, hs, heq⟩
        cases heq
        exact ⟨s.idle, h.mem_stack.mpr ⟨s, hs, rfl, rfl, rfl⟩, rfl⟩
    rw [← hmem]
    constructor
    · intro htrue
      by_contra habsent
      rw [remove_of_absent habsent] at htrue
      cases htrue
    · intro hheld
      rw [remove_of_stack hheld]
  · intro now
    have hgone := ((h.held_perm.filter fun e => l.pool.expired now e.2).map (·.2.fd))
    rw [List.filter_map, List.map_map] at hgone
    refine hgone.trans (List.Perm.of_eq ?_)
    rw [← h.timeout]
    rfl
  · intro now
    have hkept := (h.held_perm.filter fun e => !l.pool.expired now e.2).map fun e => (e.1, e.2.fd)
    rw [← entries_sift (fun i => !l.pool.expired now i), List.filter_map, List.map_map] at hkept
    refine hkept.trans (List.Perm.of_eq ?_)
    have htest : ((fun e : SocketAddr × Idle => !l.pool.expired now e.2) ∘
        fun s : Shelved => (s.addr, s.idle)) = fun s => decide (now - s.since < idleTimeout) := by
      funext s
      have htimeout := h.timeout
      by_cases hage : idleTimeout ≤ now - s.since
      · have hlt : ¬ now - s.since < idleTimeout := by omega
        simp [Pool.expired, Shelved.idle, htimeout, hage, hlt]
      · have hlt : now - s.since < idleTimeout := by omega
        simp [Pool.expired, Shelved.idle, htimeout, hage, hlt]
    rw [htest]
    rfl
  · apply List.Perm.of_eq
    exact (held_drain l.pool).1

/-- In every run of a pool's calls each descriptor it accepted is held once, under the address it
was put with, until one answer gives it out. -/
theorem pool_conserves (maxIdlePerHost idleTimeout : Nat) (calls : List Call) :
    Always step (Conserved maxIdlePerHost idleTimeout) (start maxIdlePerHost idleTimeout) calls := by
  have hmeets : ∀ calls l, Meets step (fun _ _ => True) l calls := by
    intro calls
    induction calls with
    | nil => exact fun _ => trivial
    | cons c rest ih => exact fun l => ⟨trivial, fun l' _ => ih l'⟩
  exact always_of_meets (fun _ _ _ hinv _ hstep => stocked_step hinv hstep)
    (fun _ => conserved_of_stocked) (stocked_start _ _) (hmeets calls _)

end Conservation

end Ramjet.Engine.PoolRuns
