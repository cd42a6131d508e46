import Logbook.Decimal.Power
import Logbook.Text.Quoted
import Logbook.Time.Span
import Logbook.World

/-! # Socket sinks

    A socket sink sends lines to a peer.  While there is no connection, lines are
    dropped; a connection is tried again after a delay that grows by a factor up
    to a ceiling.
-/

namespace Logbook

open Time

/-- When to try again to connect. -/
structure Backoff where
  start : Span := Span.second
  ceiling : Span := 30 * Span.second
  /-- The delay after the next failure, before the ceiling is applied. -/
  grow : Span → Except Span.Fault Span := Span.scaled (Double.ofFloat 2.0)
  /-- The delay after the last failure. -/
  period : Span := 0
  /-- The instant before which no connection is tried. -/
  retryAt? : Option Nat := none

namespace Backoff

/-- Why the next attempt cannot be scheduled. -/
inductive Fault where
  /-- The delay does not grow to a span. -/
  | growth (f : Span.Fault)
  /-- The steady clock has no instant so late. -/
  | tooLate
  deriving Repr, DecidableEq

/-- The wording of a fault. -/
def Fault.message : Fault → String
  | growth f => f.message
  | tooLate => "overflow when adding duration to instant"

/-- The first count of nanoseconds that the steady clock cannot tell: its seconds have 63 bits. -/
def clockEnd : Nat := twoTo 63 * Span.second

/-- A connection may be tried at an instant. -/
def permits (b : Backoff) (now : Nat) : Bool :=
  match b.retryAt? with
  | none => true
  | some at_ => decide (at_ ≤ now)

/-- After a success there is no delay. -/
def succeeded (b : Backoff) : Backoff := { b with period := 0, retryAt? := none }

/-- The delay after a failure: the first is the one to start with, and each further
    one is the last one grown, up to the ceiling. -/
def delay (b : Backoff) : Except Fault Span :=
  match b.retryAt? with
  | none => .ok b.start
  | some _ =>
    match b.grow b.period with
    | .error e => .error (.growth e)
    | .ok grown => .ok (min grown b.ceiling)

/-- After a failure.  A delay that ends too late is kept, but no instant. -/
def failed (b : Backoff) (now : Nat) : Except Fault Unit × Backoff :=
  match b.delay with
  | .error e => (.error e, b)
  | .ok period =>
    if now + period < clockEnd then (.ok (), { b with period, retryAt? := some (now + period) })
    else (.error .tooLate, { b with period })

end Backoff

/-- **Wire**: how attempts to connect and to send come out. -/
structure Wire where
  dial : World → Option ConnectionId × World
  send : ConnectionId → List UInt8 → World → Except SystemError Unit × World

/-- Sends lines to a peer. -/
structure SocketSink where
  host : String
  port : Nat
  /-- The peer at that address, if anybody listens there. -/
  peer? : Option PeerId := none
  connection? : Option ConnectionId := none
  terminator : String := "\n"
  backoff : Backoff := {}

namespace SocketSink

/-- Host and port. -/
def address (s : SocketSink) : String := s!"{s.host}:{s.port}"

/-- There is a connection. -/
def isConnected (s : SocketSink) : Bool := s.connection?.isSome

/-- Opens a connection to the peer, if anybody listens there. -/
def dial (s : SocketSink) (w : World) : Option ConnectionId × World :=
  match s.peer? with
  | none => (none, w)
  | some peer =>
    if (w.peers.getD peer {}).refuses then (none, w)
    else (some w.connections.size, { w with connections := w.connections.push { peer } })

/-- Sends bytes through a connection. -/
def send (c : ConnectionId) (bytes : List UInt8) (w : World) : Except SystemError Unit × World :=
  match (w.connections.getD c { peer := 0 }).fault? with
  | some e => (.error e, w)
  | none =>
    (.ok (), { w with
      connections := w.connections.modify c fun x => { x with sent := x.sent ++ bytes } })

/-- The wire to the peer of a sink. -/
def wire (s : SocketSink) : Wire := { dial := s.dial, send }

/-- Connects if there is no connection and it is time to try. -/
def connect (wire : Wire) (s : SocketSink) (w : World) : Except LogError Unit × SocketSink × World :=
  if s.isConnected then (.ok (), s, w)
  else
    let (now, w) := w.readSteady
    if !s.backoff.permits now then (.ok (), s, w)
    else
      match wire.dial w with
      | (some c, w) => (.ok (), { s with connection? := some c, backoff := s.backoff.succeeded }, w)
      | (none, w) =>
        match s.backoff.failed now with
        | (.ok (), backoff) => (.ok (), { s with backoff }, w)
        | (.error fault, backoff) => (.error (.panicked fault.message), { s with backoff }, w)

/-- Sends a text with its line end over a wire, or drops it if there is no connection.  A
    connection that fails is given up. -/
def emitOver (wire : Wire) (s : SocketSink) (text : String) (w : World) :
    Except LogError Bool × SocketSink × World :=
  match s.connect wire w with
  | (.error e, s, w) => (.error e, s, w)
  | (.ok (), s, w) =>
    match s.connection? with
    | none => (.ok false, s, w)
    | some c =>
      match wire.send c (text ++ s.terminator).toUTF8.toList w with
      | (.ok (), w) => (.ok true, s, w)
      | (.error e, w) => (.error (.system e), { s with connection? := none }, w)

/-- Sends a text with its line end to the peer, or drops it. -/
def emit (s : SocketSink) (text : String) (w : World) :
    Except LogError Bool × SocketSink × World := s.emitOver s.wire text w

/-- Ends the connection. -/
def close (s : SocketSink) : SocketSink := { s with connection? := none }

/-- For a developer. -/
def inspect (s : SocketSink) : String :=
  "SocketSink \x7b address: " ++ Text.quoted s.address ++ s!", connected: {s.isConnected}" ++
    s!", retry_period: {s.backoff.period.inspect}, .. \x7d"

end SocketSink

end Logbook
