import Mathlib.Data.List.Basic

/-!
# The process-wide objects

Source: ladder/src/MemoryPool.cpp and ladder/src/Logging.cpp (`instance`, `create`,
`release`), ladder/include/MemoryPool.h (`MemoryPool`) and ladder/include/Logging.h
(the logging macros). Objects are numbered in the order of their construction; a
pointer is an object or null. Both classes keep the pointer twice, in the local
static of `create` and in `instance_`.
-/
namespace Ladder.Source.Singletons

inductive Singleton where
  | memoryPoolImpl
  | logger
  deriving DecidableEq, Repr

/-- What has happened to an object, with whether it was alive at the time. -/
inductive Event where
  | returned (object : Option Nat) (alive : Bool)
  | deleted (object : Nat) (alive : Bool)
  | used (object : Nat) (alive : Bool)
  deriving DecidableEq, Repr

/-- `localStatic` is the variable in `create`, none until its first call. -/
structure State where
  localStatic : Option Nat
  instance_ : Option Nat
  constructed : Nat
  deleted : List Nat
  events : List Event
  deriving DecidableEq, Repr

def start : State := ⟨none, none, 0, [], []⟩

/-- Constructed and not yet deleted. -/
def State.alive (s : State) (object : Nat) : Bool :=
  object < s.constructed && !s.deleted.contains object

def State.record (s : State) (event : Event) : State := { s with events := s.events ++ [event] }

def State.delete (s : State) (object : Nat) : State :=
  { s.record (.deleted object (s.alive object)) with deleted := s.deleted ++ [object] }

/-- `create`: the local static is initialised by the first call only. -/
def create (s : State) : Option Nat × State :=
  match s.localStatic with
  | some object => (some object, { s with instance_ := some object })
  | none =>
    (some s.constructed,
      { s with
        localStatic := some s.constructed
        instance_ := some s.constructed
        constructed := s.constructed + 1 })

/-- `instance`. -/
def getInstance (s : State) : Singleton → Option Nat × State
  | .memoryPoolImpl => create s
  | .logger =>
    match s.instance_ with
    | some object => (some object, s)
    | none => create s

/-- `release`; that of `Logger` leaves `instance_` as it is. -/
def release (s : State) : Singleton → State
  | .memoryPoolImpl =>
    match s.instance_ with
    | some object => { s.delete object with instance_ := none }
    | none => s
  | .logger =>
    match s.instance_ with
    | some object => s.delete object
    | none => s

/-- A member call through a pointer. -/
def access (s : State) : Option Nat → State
  | some object => s.record (.used object (s.alive object))
  | none => s

/-- `MemoryPool::allocate`, `allocate_n` and `free` fetch the instance once, test it
for null and go through it; the logging macros fetch it once for the test and once
more for the call. -/
def use (s : State) : Singleton → State
  | .memoryPoolImpl =>
    let (object, s) := getInstance s .memoryPoolImpl
    access s object
  | .logger =>
    match getInstance s .logger with
    | (none, s) => s
    | (some _, s) =>
      let (object, s) := getInstance s .logger
      access s object

def returns (result : Option Nat × State) : State :=
  result.2.record (.returned result.1 (result.1.any result.2.alive))

inductive Act where
  | create
  | getInstance
  | release
  | use
  deriving DecidableEq, Repr

def step (kind : Singleton) (s : State) : Act → Option State
  | .create => some (returns (create s))
  | .getInstance => some (returns (getInstance s kind))
  | .release => some (release s kind)
  | .use => some (use s kind)

end Ladder.Source.Singletons
