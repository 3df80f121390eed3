/- digest: A TLS session in its phases, over whatever the record layer answers. -/

import Ramjet.Base.Octets

set_option autoImplicit false
set_option relaxedAutoImplicit false

namespace Ramjet.Engine.Tls

open Ramjet.Base.Octets

/-- What the client asked to speak, read off its hello. -/
inductive Offer where
  | http2
  | http11
  deriving DecidableEq, Repr

/-- How far a feed got. -/
inductive Step where
  | needMore
  | hello (offer : Offer)
  | live
  deriving DecidableEq, Repr

inductive State where
  | hello
  | ready
  | live (handshaking : Bool)
  | dead
  deriving DecidableEq, Repr

/-- What the acceptor makes of the bytes it has been given. -/
inductive HelloAnswer where
  | incomplete
  | accepted (offer : Offer)
  | refused (alert : Bytes)
  deriving DecidableEq, Repr

/-- What a live connection makes of a piece of ciphertext. -/
structure LiveAnswer where
  plain : Bytes := []
  wire : Bytes := []
  ok : Bool := true
  handshaking : Bool := false
  deriving DecidableEq, Repr

/-- What becomes of a hello once a configuration is chosen for it. -/
inductive AcceptAnswer where
  | refused (alert : Bytes)
  | failed (wire : Bytes)
  | connected (plain wire : Bytes) (handshaking : Bool)
  deriving DecidableEq, Repr

/-- What the TLS library answers while one operation runs. -/
structure Rustls where
  hello : HelloAnswer := .incomplete
  live : LiveAnswer := {}
  accept : AcceptAnswer := .failed []
  taken : Nat × Bytes := (0, [])
  closeNotify : Bytes := []
  deriving DecidableEq, Repr

/-- One connection's TLS state. -/
structure Session where
  state : State := .hello
  replay : Bytes := []
  pending : Bytes := []
  wireOut : Bytes := []
  offer : Option Offer := none
  counted : Bool := false
  deriving DecidableEq, Repr

section

variable (r : Rustls)

/-- The hello phase: every byte fed is kept for a replay. -/
def Session.feedHello (s : Session) (cipher : Bytes) : Except Unit Step × Session :=
  let s := { s with replay := s.replay ++ cipher }
  match r.hello with
  | .incomplete => (.ok .needMore, s)
  | .accepted offer => (.ok (.hello offer), { s with offer := some offer, state := .ready })
  | .refused alert => (.error (), { s with wireOut := s.wireOut ++ alert, state := .dead })

/-- The live phase: plaintext comes out, and a failure leaves the session dead. -/
def Session.feedLive (s : Session) : Except Unit Bytes × Session :=
  match s.state with
  | .live _ =>
      let s := { s with wireOut := s.wireOut ++ r.live.wire }
      if r.live.ok then (.ok r.live.plain, { s with state := .live r.live.handshaking })
      else (.error (), { s with state := .dead })
  | _ => (.ok [], { s with state := .dead })

/-- Feed ciphertext; the plaintext it yields comes back with the step reached. -/
def Session.feed (s : Session) (cipher : Bytes) : Except Unit Step × Bytes × Session :=
  match s.state with
  | .dead => (.ok .live, [], s)
  | .hello =>
      let fed := s.feedHello r cipher
      (fed.1, [], fed.2)
  | .ready =>
      (.ok (.hello (s.offer.getD .http11)), [],
        { s with replay := s.replay ++ cipher, pending := s.pending ++ cipher })
  | .live _ =>
      -- What was decrypted before a failure has already been appended.
      let fed := s.feedLive r
      (fed.1.map fun _ => .live, r.live.plain, fed.2)

/-- Commit the connection to this engine, which ends the possibility of a replay. -/
def Session.accept (s : Session) : Except Unit Unit × Bytes × Session :=
  match s.state with
  | .ready =>
      let s := { s with state := .dead, replay := [] }
      match r.accept with
      | .refused alert => (.error (), [], { s with wireOut := s.wireOut ++ alert })
      | .failed wire => (.error (), [], { s with wireOut := s.wireOut ++ wire })
      | .connected plain wire handshaking =>
          let s := { s with wireOut := s.wireOut ++ wire, state := .live handshaking }
          if s.pending.isEmpty then (.ok (), plain, s)
          else
            let fed := { s with pending := [] }.feedLive r
            (fed.1.map fun _ => (), plain ++ r.live.plain, fed.2)
  | _ => (.ok (), [], { s with state := .dead })

/-- Hand plaintext to the record layer; how much of it was taken comes back. -/
def Session.sealPlain (s : Session) (plain : Bytes) : Nat × Session :=
  match s.state with
  | .live _ => (min r.taken.1 plain.length, { s with wireOut := s.wireOut ++ r.taken.2 })
  | _ => (0, s)

def Session.sendCloseNotify (s : Session) : Session :=
  match s.state with
  | .live _ => { s with wireOut := s.wireOut ++ r.closeNotify }
  | _ => s

end

/-- Every byte the client sent while the hello was being read. -/
def Session.intoReplay (s : Session) : Bytes := s.replay

def Session.hasWire (s : Session) : Bool := !s.wireOut.isEmpty

def Session.established (s : Session) : Bool := s.state == .live false

def Session.kill (s : Session) : Session := { s with state := .dead }

def Session.takeEstablished (s : Session) : Bool × Session :=
  if s.counted || !s.established then (false, s) else (true, { s with counted := true })

end Ramjet.Engine.Tls
