import WideColumn.Failure

/-!
# Journal entries

What is said to the journal, with the context in which it was said: the request, the table that is
worked on, and the span that is active.
-/

namespace WideColumn

/-- The place of a span in a trace, in two numbers of which neither is zero. -/
structure SpanContext where
  trace : Nat
  span : Nat
  deriving DecidableEq, Repr

/-- Both numbers are there and fit into 128 and 64 bits. -/
def SpanContext.isValid (c : SpanContext) : Bool :=
  0 < c.trace && c.trace < Nat.pow 2 128 && 0 < c.span && c.span < Nat.pow 2 64

/-- A journal entry with the context in which it was made. -/
structure Entry where
  level : Int
  logger : String
  message : String
  extras : List (String × Value) := []
  exception : Option String := none
  requestId : Option String := none
  table : Option String := none
  active : Option SpanContext := none

end WideColumn
