import Logbook.Files.Operations
import Logbook.Time.Zone

/-! # The world around the log

    What sinks write to and read from: files, the two standard streams, other
    writers, connections to peers, and clocks.
-/

namespace Logbook

/-- A writer that a stream sink has been given. -/
abbrev WriterId := Nat

/-- A peer that listens for connections. -/
abbrev PeerId := Nat

/-- A connection to a peer. -/
abbrev ConnectionId := Nat

/-- A clock that stands still between settings. -/
abbrev ClockId := Nat

/-- A writer: what it has taken, and which of its operations fail. -/
structure Writer where
  text : String := ""
  writeFault? : Option SystemError := none
  flushFault? : Option SystemError := none
  deriving Repr, DecidableEq, Inhabited

/-- A connection: the peer at its other end, the bytes sent to it, and why no more
    can be sent, if that is so. -/
structure Connection where
  peer : PeerId
  sent : List UInt8 := []
  fault? : Option SystemError := none
  deriving Repr, DecidableEq, Inhabited

/-- A peer: whether it refuses connections, and how many of those made have been
    accepted. -/
structure Peer where
  refuses : Bool := false
  accepted : Nat := 0
  deriving Repr, DecidableEq, Inhabited

/-- Which clock tells the time. -/
inductive Clock where
  | wall
  | manual (id : ClockId)
  deriving Repr, DecidableEq, Inhabited

/-- Everything outside the log. -/
structure World where
  files : FileSystem := {}
  /-- Standard output so far. -/
  out : String := ""
  /-- Standard error so far. -/
  err : String := ""
  writers : Array Writer := #[]
  peers : Array Peer := #[]
  connections : Array Connection := #[]
  clocks : Array Time.Instant := #[]
  /-- The steady clock, in nanoseconds; it only ever goes forward. -/
  steady : Nat := 0
  deriving Inhabited

namespace World

/-- Writes a line to standard error. -/
def report (w : World) (line : String) : World := { w with err := w.err ++ line ++ "\n" }

/-- Reports a failure inside the log that nobody is told of otherwise. -/
def complain (w : World) (line : String) : World := w.report ("[LOGGER ERROR] " ++ line)

/-- The seconds that a clock shows. -/
def now (w : World) : Clock → Int
  | .wall => w.files.now
  | .manual id => (w.clocks.getD id { seconds := 0 }).seconds

/-- Reads the steady clock.  Two readings are at least a microsecond apart. -/
def readSteady (w : World) : Nat × World :=
  let now := w.steady + 1000
  (now, { w with steady := now })

/-- A peer accepts the next connection to it and reads so many of the bytes sent. -/
def accept (w : World) (p : PeerId) (count : Nat) : List UInt8 × World :=
  let accepted := (w.peers.getD p {}).accepted
  let waiting := (w.connections.toList.filter fun c => c.peer = p).drop accepted
  let bytes := (waiting.head?.map Connection.sent).getD []
  (bytes.take count,
    { w with peers := w.peers.modify p fun x => { x with accepted := accepted + 1 } })

end World

end Logbook
