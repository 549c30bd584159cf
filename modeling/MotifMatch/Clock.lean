import MotifMatch.Decimal.Exact
import MotifMatch.Scalar

namespace MotifMatch.Clock

def isLeap (year : Int) : Bool := year % 4 == 0 && (year % 100 != 0 || year % 400 == 0)

def daysIn (year month : Int) : Int :=
 if month = 2 then (if isLeap year then 29 else 28)
 else if month = 4 || month = 6 || month = 9 || month = 11 then 30
 else 31

structure Moment where
 year : Int
 month : Int
 day : Int
 hour : Int
 minute : Int
 second : Int

def Moment.isValid (m : Moment) : Bool :=
 1 ≤ m.year && m.year ≤ 9999 && 1 ≤ m.month && m.month ≤ 12 && 1 ≤ m.day && m.day ≤
  daysIn m.year m.month &&
  0 ≤ m.hour && m.hour ≤ 23 && 0 ≤ m.minute && m.minute ≤ 59 && 0 ≤ m.second && m.second ≤ 59

def twoDigits (n : Int) : String := String.ofList (Decimal.padLeft 2 (toString n).toList)

def timestamp (m : Moment) : Except Error String :=
 if m.isValid then
  let date := toString m.year ++ "-" ++ twoDigits m.month ++ "-" ++ twoDigits m.day
  .ok (date ++ "T" ++ twoDigits m.hour ++ "-" ++ twoDigits m.minute)
 else .error .badValue

end MotifMatch.Clock

namespace MotifMatch

inductive Device where
 | cpu
 | cuda
 | mps
 deriving DecidableEq, Repr

namespace Device

def name : Device → String
 | .cpu => "cpu"
 | .cuda => "cuda"
 | .mps => "mps"

def choose (hasCuda hasMps forceCpu : Bool) : Device :=
 if forceCpu then .cpu else if hasCuda then .cuda else if hasMps then .mps else .cpu

end Device
end MotifMatch
