/-!
Dates of the proleptic Gregorian calendar, and their text in the headers of messages.
-/

namespace ApiInterfaces.Calendar

/-- A moment, in seconds since the beginning of 1970, and by how many seconds the clock that shows
it is ahead of UTC. -/
structure Moment where
  seconds : Int
  offset : Int := 0
deriving DecidableEq, Repr, Inhabited

/-- A number of seconds is a moment on a clock that shows UTC. -/
instance : Coe Int Moment := ⟨fun seconds => { seconds }⟩

instance (n : Nat) : OfNat Moment n := ⟨{ seconds := n }⟩

structure Date where
  year : Int
  month : Nat
  day : Nat
deriving DecidableEq, Repr, Inhabited

/-- The date a number of days after 1 January 1970. Years are counted from March on, so that a
leap day ends one; an era is 400 of them. -/
def dateOfDays (days : Int) : Date :=
  let shifted := days + 719468
  let era := shifted / 146097
  let dayOfEra := (shifted % 146097).toNat
  let yearOfEra := (dayOfEra - dayOfEra / 1460 + dayOfEra / 36524 - dayOfEra / 146096) / 365
  let dayOfYear := dayOfEra - (365 * yearOfEra + yearOfEra / 4 - yearOfEra / 100)
  let fromMarch := (5 * dayOfYear + 2) / 153
  let day := dayOfYear - (153 * fromMarch + 2) / 5 + 1
  let month := if fromMarch < 10 then fromMarch + 3 else fromMarch - 9
  let year := (yearOfEra : Int) + 400 * era + if month ≤ 2 then 1 else 0
  ⟨year, month, day⟩

def weekdays : List String := ["Sun", "Mon", "Tue", "Wed", "Thu", "Fri", "Sat"]

def months : List String :=
  ["Jan", "Feb", "Mar", "Apr", "May", "Jun", "Jul", "Aug", "Sep", "Oct", "Nov", "Dec"]

/-- A number in at least `width` digits. -/
def padded (width n : Nat) : String :=
  let digits := Nat.toDigits 10 n
  String.ofList (List.replicate (width - digits.length) '0' ++ digits)

/-- The hours and minutes that a clock is ahead of UTC, as in `+0130`, to the nearest minute. -/
def offsetText (offset : Int) : String :=
  let minutes := (offset.natAbs + 30) / 60
  (if offset < 0 then "-" else "+") ++ padded 2 (minutes / 60) ++ padded 2 (minutes % 60)

/-- A moment as its clock shows it, as in `Fri, 1 Mar 2024 12:00:00 +0000`. -/
def text (moment : Moment) : String :=
  let shown := moment.seconds + moment.offset
  let days := shown / 86400
  let second := (shown % 86400).toNat
  let date := dateOfDays days
  let weekday := weekdays.getD ((days + 4) % 7).toNat ""
  let month := months.getD (date.month - 1) ""
  let clock := String.intercalate ":"
    [padded 2 (second / 3600), padded 2 (second / 60 % 60), padded 2 (second % 60)]
  String.intercalate " "
    [weekday ++ ",", Nat.repr date.day, month, padded 4 date.year.toNat, clock,
      offsetText moment.offset]

end ApiInterfaces.Calendar
