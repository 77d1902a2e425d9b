/-!
# Moments

Days of the calendar and times of day, alone or together, in which case the distance from universal
time may be known.
-/

namespace VendorTree

structure Day where
  year : Nat
  month : Nat
  day : Nat
  deriving DecidableEq, Repr

structure TimeOfDay where
  hour : Nat
  minute : Nat
  second : Nat
  microsecond : Nat
  deriving DecidableEq, Repr

/-- A day, a time of day, or both with the distance from universal time in minutes. -/
inductive Moment
  | day (day : Day)
  | time (time : TimeOfDay)
  | dayTime (day : Day) (time : TimeOfDay) (offset : Option Int)
  deriving DecidableEq, Repr

namespace Moment

def call (name : String) (arguments : List String) : String :=
  name ++ "(" ++ ", ".intercalate arguments ++ ")"

def dayParts (d : Day) : List String := [d.year, d.month, d.day].map toString

/-- The parts of a time of day. Seconds and their fraction are left out where they are zero. -/
def timeParts (t : TimeOfDay) : List String :=
  let parts := if t.microsecond ≠ 0 then [t.hour, t.minute, t.second, t.microsecond]
    else if t.second ≠ 0 then [t.hour, t.minute, t.second] else [t.hour, t.minute]
  parts.map toString

/-- A distance from universal time in minutes, as days and seconds of which the latter are never
negative. -/
def offsetText (minutes : Int) : String :=
  if minutes = 0 then "datetime.timezone.utc"
  else
    let distance := if 0 < minutes then ["seconds=" ++ toString (60 * minutes)]
      else ["days=-1", "seconds=" ++ toString (86400 + 60 * minutes)]
    call "datetime.timezone" [call "datetime.timedelta" distance]

def text : Moment → String
  | .day d => call "datetime.date" (dayParts d)
  | .time t => call "datetime.time" (timeParts t)
  | .dayTime d t offset =>
    let zone := offset.toList.map fun minutes => "tzinfo=" ++ offsetText minutes
    call "datetime.datetime" (dayParts d ++ timeParts t ++ zone)

def kind : Moment → String
  | .day _ => "date"
  | .time _ => "time"
  | .dayTime .. => "datetime"

end Moment

end VendorTree
