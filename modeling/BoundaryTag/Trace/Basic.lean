/-!
# Traces

A trace is a list of requests to an allocator. Each payload goes by a number of the trace's own.
-/
namespace BoundaryTag

/-- One request of a trace. -/
inductive Request where
  | allocate (id size : Nat)
  /-- Give a payload another size, or allocate it when there is none. -/
  | resize (id size : Nat)
  | release (id : Nat)
deriving DecidableEq, Repr

abbrev Trace := List Request

end BoundaryTag
