import AgentBroker.Toml.Value

/-!
# TOML literals

Truth values, integers in four bases, floating-point numbers, dates and times of day. Digits may be
grouped by underscores between them.
-/

namespace AgentBroker.Toml

def isHexDigit (c : Char) : Bool := c.isDigit || ('a' ≤ c && c ≤ 'f') || ('A' ≤ c && c ≤ 'F')

/-- The digits that go on a row, without their underscores, and what follows them. An underscore
must have a digit behind it. -/
def moreDigits (isDigit : Char → Bool) : List Char → Option (List Char × List Char)
  | '_' :: c :: cs =>
    if isDigit c then (moreDigits isDigit cs).map fun (ds, rest) => (c :: ds, rest) else none
  | ['_'] => none
  | c :: cs =>
    if isDigit c then (moreDigits isDigit cs).map fun (ds, rest) => (c :: ds, rest)
    else some ([], c :: cs)
  | [] => some ([], [])

def digitRow (isDigit : Char → Bool) : List Char → Option (List Char × List Char)
  | c :: cs =>
    if isDigit c then (moreDigits isDigit cs).map fun (ds, rest) => (c :: ds, rest) else none
  | [] => none

/-- The digits of a decimal integer: a zero, or a row that starts with none. -/
def wholeDigits : List Char → Option (List Char × List Char)
  | '0' :: cs => some (['0'], cs)
  | cs => digitRow Char.isDigit cs

def digitsValue (base : Nat) (ds : List Char) : Nat :=
  ds.foldl (fun n c => n * base +
    (if c.isDigit then c.toNat - '0'.toNat else c.toLower.toNat - 'a'.toNat + 10)) 0

def splitSign : List Char → Bool × List Char
  | '-' :: cs => (true, cs)
  | '+' :: cs => (false, cs)
  | cs => (false, cs)

def boundedInteger? (i : Int) : Option Toml :=
  if Int64.minValue.toInt ≤ i ∧ i ≤ Int64.maxValue.toInt then some (.integer i) else none

def basedInteger? (base : Nat) (isDigit : Char → Bool) (cs : List Char) :
    Option (Toml × List Char) := do
  let (ds, rest) ← digitRow isDigit cs
  return (← boundedInteger? (digitsValue base ds), rest)

def fraction? : List Char → Option (List Char × List Char)
  | '.' :: cs => digitRow Char.isDigit cs
  | cs => some ([], cs)

def exponent? : List Char → Option (Option Int × List Char)
  | c :: cs =>
    if c = 'e' ∨ c = 'E' then do
      let (negative, cs) := splitSign cs
      let (ds, rest) ← digitRow Char.isDigit cs
      let n : Int := digitsValue 10 ds
      return (some (if negative then -n else n), rest)
    else some (none, c :: cs)
  | [] => some (none, [])

/-- The double nearest to a decimal; positive overflow is refused. Exponents beyond any double are
cut. -/
def boundedFloat? (negative : Bool) (digits : Nat) (exponent : Int) : Option Toml :=
  let e := max (-100000) (min 100000 exponent)
  let x := Float.ofScientific digits (e < 0) e.natAbs
  if x.isInf ∧ !negative then none else some (.float (if negative then -x else x))

def decimal? (cs : List Char) : Option (Toml × List Char) := do
  let (negative, cs) := splitSign cs
  let (whole, cs) ← wholeDigits cs
  let (fraction, cs) ← fraction? cs
  let (exponent, cs) ← exponent? cs
  if fraction = [] ∧ exponent = none then
    let n : Int := digitsValue 10 whole
    return (← boundedInteger? (if negative then -n else n), cs)
  else
    let e := exponent.getD 0 - (fraction.length : Int)
    return (← boundedFloat? negative (digitsValue 10 (whole ++ fraction)) e, cs)

def special? (cs : List Char) : Option (Toml × List Char) :=
  let (negative, cs) := splitSign cs
  match cs with
  | 'i' :: 'n' :: 'f' :: rest => some (.float (if negative then -1.0 / 0.0 else 1.0 / 0.0), rest)
  | 'n' :: 'a' :: 'n' :: rest => some (.float (0.0 / 0.0), rest)
  | _ => none

def number? (cs : List Char) : Option (Toml × List Char) :=
  match cs with
  | '0' :: 'x' :: ds => basedInteger? 16 isHexDigit ds
  | '0' :: 'o' :: ds => basedInteger? 8 (fun c => '0' ≤ c && c ≤ '7') ds
  | '0' :: 'b' :: ds => basedInteger? 2 (fun c => c == '0' || c == '1') ds
  | _ => (special? cs).or (decimal? cs)

def fixedDigits? (n : Nat) (cs : List Char) : Option (Nat × List Char) :=
  let ds := cs.take n
  if ds.length = n ∧ ds.all Char.isDigit then some (digitsValue 10 ds, cs.drop n) else none

def twoDigits? (most : Nat) (cs : List Char) : Option (Nat × List Char) :=
  (fixedDigits? 2 cs).filter (·.1 ≤ most)

def expect? (c : Char) : List Char → Option (List Char)
  | d :: cs => if d = c then some cs else none
  | [] => none

def isLeapYear (year : Nat) : Bool := year % 4 = 0 && (year % 100 ≠ 0 || year % 400 = 0)

def daysOfMonth (year month : Nat) : Nat :=
  if month = 2 then (if isLeapYear year then 29 else 28)
  else if month ∈ [4, 6, 9, 11] then 30
  else 31

def date? (cs : List Char) : Option (List Char) := do
  let (year, cs) ← fixedDigits? 4 cs
  let (month, cs) ← twoDigits? 12 (← expect? '-' cs)
  let (day, cs) ← twoDigits? (daysOfMonth year month) (← expect? '-' cs)
  if month = 0 ∨ day = 0 then none else some cs

/-- What follows a time of day, which may have a leap second. -/
def time? (cs : List Char) : Option (List Char) := do
  let (_, cs) ← twoDigits? 23 cs
  let (_, cs) ← twoDigits? 59 (← expect? ':' cs)
  let (_, cs) ← twoDigits? 60 (← expect? ':' cs)
  match cs with
  | '.' :: rest =>
    let ds := rest.takeWhile Char.isDigit
    if ds = [] then none else some (rest.drop ds.length)
  | _ => some cs

def zone (cs : List Char) : List Char :=
  let offset? (cs : List Char) : Option (List Char) := do
    let (_, cs) ← twoDigits? 23 cs
    let (_, cs) ← twoDigits? 59 (← expect? ':' cs)
    return cs
  match cs with
  | 'Z' :: rest | 'z' :: rest => rest
  | '+' :: rest | '-' :: rest => (offset? rest).getD cs
  | _ => cs

def timeBehindDate (cs : List Char) : List Char :=
  match cs with
  | c :: rest =>
    if c = 'T' ∨ c = 't' ∨ c = ' ' then ((time? rest).map zone).getD cs else cs
  | [] => cs

def moment? (cs : List Char) : Option (Toml × List Char) :=
  (((date? cs).map timeBehindDate).or (time? cs)).map fun rest => (.moment, rest)

def literal? (cs : List Char) : Option (Toml × List Char) :=
  match cs with
  | 't' :: 'r' :: 'u' :: 'e' :: rest => some (.bool true, rest)
  | 'f' :: 'a' :: 'l' :: 's' :: 'e' :: rest => some (.bool false, rest)
  | _ => (moment? cs).or (number? cs)

end AgentBroker.Toml
