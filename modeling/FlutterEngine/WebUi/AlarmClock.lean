import FlutterEngine.Lib.Run
import Mathlib.Data.Int.Order.Basic

/-!
# The alarm clock

`lib/web_ui/lib/src/engine/alarm_clock.dart`: an alarm clock calls back at the time it is set to,
which may be changed in either direction before that. It rests on timers that fire once and cannot
be reconfigured, and that may fire late or early.

The machine `step` sets the alarm clock, lets time pass, and lets a timer fire. The callback is the
last thing that happens when a timer fires, so that it may be taken to set the alarm clock in the
actions that follow.
-/

namespace WebUi

/-- A `DateTime`. It is equal to another one if both are the same moment and in the same time zone;
the order compares the moments only. -/
structure DateTime where
  microsecondsSinceEpoch : ℤ
  isUtc : Bool
deriving DecidableEq, Repr

namespace DateTime

def isBefore (d e : DateTime) : Bool := decide (d.microsecondsSinceEpoch < e.microsecondsSinceEpoch)

def isAfter (d e : DateTime) : Bool := decide (e.microsecondsSinceEpoch < d.microsecondsSinceEpoch)

/-- The duration from `e` to `d`, in microseconds. -/
def difference (d e : DateTime) : ℤ := d.microsecondsSinceEpoch - e.microsecondsSinceEpoch

end DateTime

/-- A timer of the event loop that has neither fired nor been cancelled. -/
structure Timer where
  id : ℕ
  /-- The moment at which it is expected to fire. -/
  expiry : ℤ
deriving DecidableEq, Repr

/-- `AlarmClock`, with the time and the timers of the event loop. -/
structure AlarmClock where
  /-- `_timer` -/
  timer : Option ℕ
  /-- `_datetime` -/
  datetime : Option DateTime
  /-- What `_timestampFunction` returns. -/
  now : DateTime
  /-- The timers of the event loop. -/
  pending : List Timer
  /-- The id of the next timer. -/
  nextId : ℕ
  /-- When timers have fired. -/
  fired : List DateTime
  /-- The calls of `callback`, with `_datetime` and the time of the call. -/
  rings : List (DateTime × DateTime)
deriving DecidableEq, Repr

namespace AlarmClock

def init (now : DateTime) : AlarmClock where
  timer := none
  datetime := none
  now := now
  pending := []
  nextId := 0
  fired := []
  rings := []

variable (s : AlarmClock)

/-- `_timer = Timer(duration, _timerDidFire)` -/
def createTimer (duration : ℤ) : AlarmClock :=
  { s with
    timer := some s.nextId
    pending := s.pending ++ [⟨s.nextId, s.now.microsecondsSinceEpoch + duration⟩]
    nextId := s.nextId + 1 }

/-- `_cancelTimer` -/
def cancelTimer : AlarmClock :=
  match s.timer with
  | none => s
  | some id => { s with timer := none, pending := s.pending.filter fun timer => timer.id ≠ id }

/-- The last part of the setter of `datetime`, for a value that is in the future and different from
`_datetime`; `none` if the assertion fails. -/
def schedule (value : DateTime) : Option AlarmClock :=
  match s.timer, s.datetime with
  | none, _ => some { s.createTimer (value.difference s.now) with datetime := some value }
  | some _, none => none
  | some _, some datetime =>
    -- the timer would come too late; if it comes too early it is replaced when it fires
    if datetime.isAfter value then
      some { s.cancelTimer.createTimer (value.difference s.now) with datetime := some value }
    else some { s with datetime := some value }

/-- The setter of `datetime`, for a value that is different from `_datetime`. -/
def change : Option DateTime → Option AlarmClock
  | none => some { s.cancelTimer with datetime := none }
  | some value =>
    -- a time in the past is kept, but nothing will ring
    if value.isBefore s.now then some { s.cancelTimer with datetime := some value }
    else s.schedule value

/-- The setter of `datetime`. -/
def setDatetime (value : Option DateTime) : Option AlarmClock :=
  if value = s.datetime then some s else s.change value

/-- `_timerDidFire`; `none` if its assertion fails. -/
def timerDidFire : Option AlarmClock :=
  match s.datetime with
  | none => none
  | some datetime =>
    -- the timer may have been created for an earlier `datetime`, or have fired early
    if !s.now.isBefore datetime then
      some { s with timer := none, rings := s.rings ++ [(datetime, s.now)] }
    else some (s.createTimer (datetime.difference s.now))

inductive Action where
  /-- `datetime` is set. -/
  | set (value : Option DateTime)
  /-- Time passes. -/
  | pass (now : DateTime)
  /-- A timer fires, whether it has expired or not. -/
  | fire (index : ℕ)
deriving DecidableEq, Repr

/-- One action, if it is possible and no assertion fails. The clock never goes back. -/
def step : Action → Option AlarmClock
  | .set value => s.setDatetime value
  | .pass now => if now.isBefore s.now then none else some { s with now }
  | .fire index =>
    if index < s.pending.length then
      timerDidFire { s with pending := s.pending.eraseIdx index, fired := s.fired ++ [s.now] }
    else none

end AlarmClock

end WebUi
