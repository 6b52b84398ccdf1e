/-!
# The call stack

The phases follow the nesting of a program by calling themselves, and the stack for such calls may
be limited. A call that finds no room ends the run, wherever it is made.

Counted are the calls that follow the nesting. The calls on the way into a phase and those of
helpers that come back at once are a fixed number, and are set aside.
-/

namespace ThreeAddress

/-- A stack of calls: the number of calls for which it has room, if it has a limit. -/
abbrev Stack := Option Nat

namespace Stack

/-- The stack that a run of the command has for its phases: the usual limit is a thousand calls, and
some of them are made on the way. -/
def usual : Stack := some 950

/-- Whether a stack has room for so many calls, each made by the one before. -/
def fits (stack : Stack) (calls : Nat) : Bool := stack.all (calls ≤ ·)

/-- Makes some calls, each from the one before, and goes on in the room that is left; without room
for them there is only `full`. -/
def enter {m : Type → Type} {α : Type} (full : m α) (calls room : Nat) (next : Nat → m α) : m α :=
  if calls ≤ room then next (room - calls) else full

end Stack

end ThreeAddress
