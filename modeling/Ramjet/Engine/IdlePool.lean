/- digest: Idle upstream connections of one core, and what each operation hands back. -/

import Ramjet.Base.Buckets
import Ramjet.Base.Net

set_option autoImplicit false
set_option relaxedAutoImplicit false

namespace Ramjet.Engine.IdlePool

open Ramjet.Base.AssocMap
open Ramjet.Base.Buckets
open Ramjet.Base.Net

/-- A descriptor number: what a signed 32-bit integer leaves for one. -/
abbrev Fd := Fin 2147483648

/-- An idle connection and when it became idle. -/
structure Idle where
  fd : Fd
  since : Nat
  deriving DecidableEq

/-- One core's idle upstream connections, most recently returned last. -/
structure Pool where
  byEndpoint : Map SocketAddr (List Idle)
  maxIdlePerHost : Nat
  idleTimeout : Nat
  nodupKeys : (byEndpoint.map (·.1)).Nodup

def Pool.new (maxIdlePerHost idleTimeout : Nat) : Pool :=
  ⟨[], maxIdlePerHost, idleTimeout, List.nodup_nil⟩

/-- The bucket of one endpoint replaced, or dropped where nothing is left in it. -/
def Pool.file (p : Pool) (addr : SocketAddr) (idle : List Idle) : Pool :=
  if idle.isEmpty then
    { p with byEndpoint := without p.byEndpoint addr
             nodupKeys := nodup_without p.nodupKeys addr }
  else
    { p with byEndpoint := insert p.byEndpoint addr idle
             nodupKeys := nodup_keys_insert p.nodupKeys addr idle }

/-- Take the most recently returned connection to an endpoint. -/
def Pool.take (p : Pool) (addr : SocketAddr) : Option Fd × Pool :=
  match get p.byEndpoint addr with
  | none => (none, p)
  | some idle =>
      match idle.getLast? with
      | none => (none, p)
      | some taken => (some taken.fd, p.file addr idle.dropLast)

/-- Offer a connection back; a descriptor in the answer was declined. -/
def Pool.put (p : Pool) (addr : SocketAddr) (fd : Fd) (now : Nat) : Option Fd × Pool :=
  let idle := (get p.byEndpoint addr).getD []
  let entry (idle : List Idle) : Pool :=
    { p with byEndpoint := insert p.byEndpoint addr idle
             nodupKeys := nodup_keys_insert p.nodupKeys addr idle }
  if p.maxIdlePerHost ≤ idle.length then (some fd, entry idle)
  else (none, entry (idle ++ [⟨fd, now⟩]))

/-- Forget a connection the caller takes back, and whether it was held. -/
def Pool.remove (p : Pool) (addr : SocketAddr) (fd : Fd) : Bool × Pool :=
  match get p.byEndpoint addr with
  | none => (false, p)
  | some idle =>
      if idle.any fun i => i.fd == fd then
        (true, p.file addr (idle.eraseP fun i => i.fd == fd))
      else (false, p)

def Pool.expired (p : Pool) (now : Nat) (i : Idle) : Bool := p.idleTimeout ≤ now - i.since

/-- Connections idle for the timeout or longer, removed from the pool. -/
def Pool.expire (p : Pool) (now : Nat) : List Fd × Pool :=
  (((entries p.byEndpoint).filter fun e => p.expired now e.2).map (·.2.fd),
    { p with byEndpoint := sift (fun i => !p.expired now i) p.byEndpoint
             nodupKeys := nodup_sift p.nodupKeys fun i => !p.expired now i })

/-- Every descriptor the pool holds, removed from it. -/
def Pool.drain (p : Pool) : List Fd × Pool :=
  ((entries p.byEndpoint).map (·.2.fd),
    { p with byEndpoint := [], nodupKeys := List.nodup_nil })

/-- What the pool holds: every idle connection under its address. -/
def Pool.held (p : Pool) : List (SocketAddr × Fd) :=
  (entries p.byEndpoint).map fun e => (e.1, e.2.fd)

def bucket (addr : SocketAddr) (idle : List Idle) : List (SocketAddr × Fd) :=
  idle.map fun i => (addr, i.fd)

theorem held_perm_get (p : Pool) (addr : SocketAddr) :
    List.Perm p.held (bucket addr ((get p.byEndpoint addr).getD []) ++
      (entries (without p.byEndpoint addr)).map fun e => (e.1, e.2.fd)) := by
  have h := (entries_perm_get p.nodupKeys addr).map fun e => (e.1, e.2.fd)
  simpa [Pool.held, bucket, Function.comp_def] using h

theorem held_perm_insert (p : Pool) (addr : SocketAddr) (idle : List Idle)
    {n : ((insert p.byEndpoint addr idle).map (·.1)).Nodup} :
    List.Perm { p with byEndpoint := insert p.byEndpoint addr idle, nodupKeys := n }.held
      (bucket addr idle ++
        (entries (without p.byEndpoint addr)).map fun e => (e.1, e.2.fd)) := by
  have h := (entries_perm_insert p.nodupKeys addr idle).map fun e => (e.1, e.2.fd)
  simpa [Pool.held, bucket, Function.comp_def] using h

theorem held_perm_file (p : Pool) (addr : SocketAddr) (idle : List Idle) :
    List.Perm (p.file addr idle).held
      (bucket addr idle ++
        (entries (without p.byEndpoint addr)).map fun e => (e.1, e.2.fd)) := by
  unfold Pool.file
  split
  · rename_i hempty
    rw [List.isEmpty_iff] at hempty
    subst hempty
    exact List.Perm.refl _
  · exact held_perm_insert p addr idle

/-- A connection taken was held under the address asked for, and is held no more. -/
theorem held_take {p : Pool} {addr : SocketAddr} {fd : Fd} {p' : Pool}
    (h : p.take addr = (some fd, p')) : List.Perm p.held ((addr, fd) :: p'.held) := by
  unfold Pool.take at h
  have hget := held_perm_get p addr
  split at h
  · cases h
  · rename_i idle hidle
    rw [hidle, Option.getD_some] at hget
    split at h
    · cases h
    · rename_i taken htaken
      cases h
      have hsplit : idle = idle.dropLast ++ [taken] := by
        obtain ⟨front, hfront⟩ := List.getLast?_eq_some_iff.mp htaken
        rw [hfront, List.dropLast_concat]
      have hfile := held_perm_file p addr idle.dropLast
      have hbucket : List.Perm (bucket addr idle) ((addr, taken.fd) :: bucket addr idle.dropLast) := by
        rw [hsplit, List.dropLast_concat]
        simp only [bucket, List.map_append, List.map_cons, List.map_nil]
        exact List.perm_append_singleton _ _
      exact hget.trans ((hbucket.append_right _).trans (hfile.symm.cons _))

theorem take_none {p : Pool} {addr : SocketAddr} {p' : Pool} (h : p.take addr = (none, p')) :
    p' = p := by
  unfold Pool.take at h
  split at h
  · cases h
    rfl
  · split at h
    · cases h
      rfl
    · cases h

/-- A connection accepted is held under the address it was offered with. -/
theorem held_put {p : Pool} {addr : SocketAddr} {fd : Fd} {now : Nat} {p' : Pool}
    (h : p.put addr fd now = (none, p')) : List.Perm p'.held ((addr, fd) :: p.held) := by
  unfold Pool.put at h
  dsimp only at h
  split at h
  · cases h
  · cases h
    have hinsert := held_perm_insert p addr ((get p.byEndpoint addr).getD [] ++ [⟨fd, now⟩])
      (n := nodup_keys_insert p.nodupKeys addr _)
    have hget := held_perm_get p addr
    have hbucket : List.Perm (bucket addr ((get p.byEndpoint addr).getD [] ++ [⟨fd, now⟩]))
        ((addr, fd) :: bucket addr ((get p.byEndpoint addr).getD [])) := by
      simp only [bucket, List.map_append, List.map_cons, List.map_nil]
      exact List.perm_append_singleton _ _
    exact hinsert.trans ((hbucket.append_right _).trans (hget.symm.cons _))

/-- A connection declined is the one offered, and the pool holds what it held. -/
theorem held_put_refused {p : Pool} {addr : SocketAddr} {fd back : Fd} {now : Nat} {p' : Pool}
    (h : p.put addr fd now = (some back, p')) : back = fd ∧ List.Perm p'.held p.held := by
  unfold Pool.put at h
  dsimp only at h
  split at h
  · cases h
    have hinsert := held_perm_insert p addr ((get p.byEndpoint addr).getD [])
      (n := nodup_keys_insert p.nodupKeys addr _)
    exact ⟨rfl, hinsert.trans (held_perm_get p addr).symm⟩
  · cases h

theorem held_remove {p : Pool} {addr : SocketAddr} {fd : Fd} {p' : Pool}
    (h : p.remove addr fd = (true, p')) : List.Perm p.held ((addr, fd) :: p'.held) := by
  unfold Pool.remove at h
  have hget := held_perm_get p addr
  split at h
  · cases h
  · rename_i idle hidle
    rw [hidle, Option.getD_some] at hget
    split at h
    · rename_i hany
      cases h
      have hmem : ∃ i ∈ idle, i.fd = fd := by simpa using hany
      obtain ⟨i, hi, hfd⟩ := hmem
      have hfile := held_perm_file p addr (idle.eraseP fun i => i.fd == fd)
      obtain ⟨a, front, back, -, ha, heq, herase⟩ :=
        List.exists_of_eraseP (p := fun i : Idle => i.fd == fd) hi (by simpa using hfd)
      have hafd : a.fd = fd := by simpa using ha
      have hbucket : List.Perm (bucket addr idle)
          ((addr, fd) :: bucket addr (idle.eraseP fun i => i.fd == fd)) := by
        rw [herase, heq]
        simp only [bucket, List.map_append, List.map_cons, hafd]
        exact List.perm_middle
      exact hget.trans ((hbucket.append_right _).trans (hfile.symm.cons _))
    · cases h

/-- What could not be removed was not held. -/
theorem not_held_of_remove {p : Pool} {addr : SocketAddr} {fd : Fd} {p' : Pool}
    (h : p.remove addr fd = (false, p')) : p' = p ∧ (addr, fd) ∉ p.held := by
  have hmem : (addr, fd) ∈ p.held ↔
      ∃ xs, get p.byEndpoint addr = some xs ∧ ∃ i ∈ xs, i.fd = fd := by
    unfold Pool.held
    rw [List.mem_map]
    constructor
    · rintro ⟨⟨a, i⟩, he, heq⟩
      rw [Prod.mk.injEq] at heq
      obtain ⟨xs, hxs, hi⟩ := (mem_entries p.nodupKeys a i).mp he
      exact ⟨xs, heq.1 ▸ hxs, i, hi, heq.2⟩
    · rintro ⟨xs, hxs, i, hi, rfl⟩
      exact ⟨(addr, i), (mem_entries p.nodupKeys addr i).mpr ⟨xs, hxs, hi⟩, rfl⟩
  rw [hmem]
  unfold Pool.remove at h
  split at h
  · rename_i hnone
    cases h
    exact ⟨rfl, by simp [hnone]⟩
  · rename_i idle hidle
    split at h
    · cases h
    · rename_i hany
      cases h
      refine ⟨rfl, ?_⟩
      rintro ⟨xs, hxs, i, hi, hfd⟩
      rw [hidle, Option.some.injEq] at hxs
      subst hxs
      exact hany (List.any_eq_true.mpr ⟨i, hi, by simpa using hfd⟩)

/-- Every connection is either expired or still held, under its address. -/
theorem held_expire (p : Pool) (now : Nat) :
    ∃ gone : List (SocketAddr × Fd), (p.expire now).1 = gone.map (·.2) ∧
      List.Perm p.held (gone ++ (p.expire now).2.held) := by
  refine ⟨((entries p.byEndpoint).filter fun e => p.expired now e.2).map
    fun e => (e.1, e.2.fd), ?_, ?_⟩
  · simp [Pool.expire, Function.comp_def]
  · have h := (entries_perm_sift (fun i => !p.expired now i) p.byEndpoint).map
      fun e => (e.1, e.2.fd)
    simpa [Pool.held, Pool.expire] using h

theorem held_drain (p : Pool) : p.drain.1 = p.held.map (·.2) ∧ p.drain.2.held = [] := by
  refine ⟨?_, rfl⟩
  simp [Pool.drain, Pool.held, Function.comp_def]

end Ramjet.Engine.IdlePool
