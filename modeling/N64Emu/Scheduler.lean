import N64Emu.Words

/-!
# The event scheduler

The source pops the least entry of a binary heap ordered by time and token.
Here the entries are a list kept in that order, so the least is the head.
-/

set_option autoImplicit false

namespace N64

open Words

inductive EventKind where
  | VerticalInterrupt | HorizontalBlank | AiDmaComplete | PiDmaComplete | SiDmaComplete
  | SpTaskDone | DpComplete | CountCompare | User
  deriving DecidableEq, Repr

structure ScheduledEvent where
  when_ : Cycles := 0
  kind : EventKind := .User
  token : U64 := 0
  deriving DecidableEq

structure Entry where
  ev : ScheduledEvent
  cancelled : Bool := false
  deriving DecidableEq

/-- `Entry::operator>`. -/
def Entry.after (e o : Entry) : Bool :=
  if e.ev.when_ ≠ o.ev.when_ then o.ev.when_ < e.ev.when_ else o.ev.token < e.ev.token

structure Scheduler where
  now : Cycles := 0
  nextToken : U64 := 1
  queue : List Entry := []
  deriving DecidableEq

namespace Scheduler

def reset (_ : Scheduler) : Scheduler := { now := 0, nextToken := 1, queue := [] }

def advance (q : Scheduler) (delta : Cycles) : Scheduler := { q with now := q.now + delta }

/-- `queue_.push`. -/
def push (e : Entry) : List Entry → List Entry
  | [] => [e]
  | o :: rest => if o.after e then e :: o :: rest else o :: push e rest

def scheduleAt (q : Scheduler) (when_ : Cycles) (kind : EventKind) : U64 × Scheduler :=
  let ev : ScheduledEvent := { when_ := when_, kind := kind, token := q.nextToken }
  (ev.token, { q with nextToken := q.nextToken + 1, queue := push { ev := ev } q.queue })

def scheduleIn (q : Scheduler) (delay : Cycles) (kind : EventKind) : U64 × Scheduler :=
  q.scheduleAt (q.now + delay) kind

/-- Every entry but the live ones of this token is kept. -/
def cancel (q : Scheduler) (token : U64) : Bool × Scheduler :=
  let doomed (e : Entry) : Bool := e.ev.token = token && !e.cancelled
  (q.queue.any doomed, { q with queue := q.queue.filter fun e => !doomed e })

/-- The pops of `dispatch_due`, with the events handed to the handler. -/
def dueFrom (now : Cycles) : List Entry → List ScheduledEvent × List Entry
  | [] => ([], [])
  | e :: rest =>
    if now < e.ev.when_ then ([], e :: rest)
    else
      let popped := dueFrom now rest
      (if e.cancelled then popped.1 else e.ev :: popped.1, popped.2)

/-- The events fired, in order; the handler does not touch the scheduler. -/
def dispatchDue (q : Scheduler) : List ScheduledEvent × Scheduler :=
  let popped := dueFrom q.now q.queue
  (popped.1, { q with queue := popped.2 })

def pending (q : Scheduler) : ℕ := q.queue.length

end Scheduler

end N64
