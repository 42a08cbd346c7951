import TestScout.Finding.Basic
set_option autoImplicit false

namespace TestScout

inductive Message where
  | found (finding : Finding)
  | complete
  | diagnostic (text : String)
  deriving DecidableEq, Repr

structure Inbox where
  queue : List Finding := []
  isFinished : Bool := false
  isClosed : Bool := false
  deriving DecidableEq, Repr

namespace Inbox

/-- Takes a message and answers whether the sender may go on. -/
def receive (i : Inbox) (m : Message) : Bool × Inbox :=
  if i.isClosed then (false,i)
  else
    match m with
    | .found f => (true,{ i with queue := i.queue ++ [f] })
    | .complete => (true,{ i with isFinished := true })
    | .diagnostic _ => (true,i)

def drain (i : Inbox) : List Finding × Inbox :=
  (i.queue,{ i with queue := [] })

def close (i : Inbox) : Inbox :=
  { i with isClosed := true, queue := [] }

end Inbox

end TestScout
