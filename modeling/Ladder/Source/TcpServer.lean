import Ladder.Library.Runs

/-!
# The connection table of TcpServer

Source: `OnNewConnection` and `OnCloseConnectionCallback` of ladder/src/TcpServer.cpp,
`Connection::Init`, `OnCloseCallback` and the destructor of ladder/src/Connection.cpp.
Every accepted descriptor is one task on a worker thread, cut at its steps; the two
steps of a close event run on a loop thread. A connection object lives while its
task or the table refers to it, and its destructor closes the descriptor.
-/
namespace Ladder.Source.TcpServer
open Ladder.Library

/-- Where the `OnNewConnection` task of a descriptor stands. -/
inductive Position where
  | accepted
  | checked
  | constructed
  | registered
  | inserted
  | returned
  | refused
  deriving DecidableEq, Repr

/-- How far `OnCloseCallback` has come: not called, after `RemoveFromLoop`, or after
`OnCloseConnectionCallback`. -/
inductive Closing where
  | no
  | removed
  | notified
  deriving DecidableEq, Repr

structure Conn where
  fd : Nat
  position : Position
  closing : Closing
  deriving DecidableEq, Repr

/-- `connections` maps descriptors to connections, which are numbered in the order
in which they were accepted. -/
structure State where
  running : Bool
  conns : List Conn
  connections : List (Nat × Nat)
  deriving DecidableEq, Repr

def start : State := ⟨true, [], []⟩

/-- The table refers to the connection. -/
def held (s : State) (id : Nat) : Bool := s.connections.any fun entry => entry.2 == id

/-- The channel of the connection is registered with a loop. -/
def Conn.inLoop (c : Conn) : Bool :=
  (c.position == .registered || c.position == .inserted || c.position == .returned) &&
    c.closing == .no

/-- The connection object has been destroyed, and its descriptor closed with it: its
task has dropped its reference and the table has none. -/
def fdClosed (s : State) (id : Nat) (c : Conn) : Bool := c.position == .returned && !held s id

/-- No connection has the descriptor open. -/
def isFree (s : State) (fd : Nat) : Bool :=
  s.conns.zipIdx.all fun (c, id) => c.fd != fd || fdClosed s id c

/-- `std::map::insert`: an existing key keeps its value. -/
def connectionsInsert (fd id : Nat) (connections : List (Nat × Nat)) : List (Nat × Nat) :=
  if connections.any fun entry => entry.1 == fd then connections else (fd, id) :: connections

/-- `find` and `erase`. -/
def connectionsErase (fd : Nat) (connections : List (Nat × Nat)) : List (Nat × Nat) :=
  connections.filter fun entry => entry.1 != fd

inductive Act where
  /-- The kernel hands out a descriptor that is not open. -/
  | accept (fd : Nat)
  | task (id : Nat)
  | removeFromLoop (id : Nat)
  | onCloseConnectionCallback (id : Nat)
  /-- The first statement of `Stop`. -/
  | stop
  deriving DecidableEq, Repr

def State.update (s : State) (id : Nat) (c : Conn) : State := { s with conns := s.conns.set id c }

/-- The next step of `OnNewConnection`. -/
def task (s : State) (id : Nat) (c : Conn) : Option State :=
  match c.position with
  | .accepted => some (s.update id { c with position := if s.running then .checked else .refused })
  | .checked => some (s.update id { c with position := .constructed })
  | .constructed => some (s.update id { c with position := .registered })
  | .registered =>
    some { s.update id { c with position := .inserted } with
      connections := connectionsInsert c.fd id s.connections }
  | .inserted => some (s.update id { c with position := .returned })
  | .returned => none
  | .refused => none

def step (s : State) : Act → Option State
  | .accept fd =>
    if isFree s fd then some { s with conns := s.conns ++ [⟨fd, .accepted, .no⟩] } else none
  | .task id =>
    match s.conns[id]? with
    | some c => task s id c
    | none => none
  | .removeFromLoop id =>
    match s.conns[id]? with
    | some c => if c.inLoop then some (s.update id { c with closing := .removed }) else none
    | none => none
  | .onCloseConnectionCallback id =>
    match s.conns[id]? with
    | some c =>
      if c.closing = .removed then
        some { s.update id { c with closing := .notified } with
          connections := connectionsErase c.fd s.connections }
      else none
    | none => none
  | .stop => some { s with running := false }

end Ladder.Source.TcpServer
