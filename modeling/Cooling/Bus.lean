import Cooling.Text.Quoted

/-!
# Connections to the bus

A handle names an address and stands for one connection.  Opening an address twice makes two
connections; only a copied handle shares one.  Connections are told apart by the number under
which they were opened, and a `Bus` counts them.
-/

namespace Cooling

namespace Bus

/-- A handle on a connection. -/
structure Handle where
  address : String
  connection : Nat
deriving DecidableEq, Repr

namespace Handle

/-- Whether two handles stand for one connection. -/
def sameConnection (a b : Handle) : Bool := a.connection == b.connection

/-- The handle as shown to people. -/
def describe (handle : Handle) : String := s!"BusHandle({Text.quoted handle.address})"

end Handle

/-- The address of the system bus. -/
def systemAddress : String := "unix:path=/var/run/dbus/system_bus_socket"

end Bus

/-- The number of connections opened so far. -/
structure Bus where
  opened : Nat := 0
deriving DecidableEq, Repr

namespace Bus

/-- Opens a new connection to an address. -/
def connect (bus : Bus) (address : String) : Handle × Bus :=
  (⟨address, bus.opened⟩, ⟨bus.opened + 1⟩)

/-! ## Handles in use -/

/-- The handles in use, oldest first, and the bus they were opened on. -/
structure Pool where
  bus : Bus := {}
  handles : List Handle := []
deriving Repr

/-- How a pool grows. -/
inductive Pool.Step where
  /-- A new connection to an address. -/
  | connect (address : String)
  /-- A new connection to the system bus. -/
  | system
  /-- A new connection to the bus taken where none is named, which is the system bus. -/
  | default
  /-- A copy of the handle at an index. -/
  | copy (index : Nat)
deriving DecidableEq, Repr

namespace Pool

/-- The pool with a handle on a new connection. -/
def connect (pool : Pool) (address : String) : Pool :=
  let (handle, bus) := pool.bus.connect address
  ⟨bus, pool.handles ++ [handle]⟩

/-- The pool with one more handle.  A copy of a handle that is not there adds none. -/
def step (pool : Pool) : Step → Pool
  | .connect address => pool.connect address
  | .system => pool.connect systemAddress
  | .default => pool.connect systemAddress
  | .copy index => ⟨pool.bus, pool.handles ++ pool.handles[index]?.toList⟩

/-- The pool after a sequence of steps from the empty one. -/
def run (steps : List Step) : Pool := steps.foldl step {}

end Pool
end Bus
end Cooling
