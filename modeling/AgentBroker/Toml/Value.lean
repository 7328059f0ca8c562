/-!
# TOML values

The tables of a TOML text remember how they came about, since that decides who may add to them: a
table in braces is finished, a table of its own header takes members only below that header, and a
table that was only passed through is still open.
-/

namespace AgentBroker

inductive Toml.Origin where
  /-- Written in braces. -/
  | inline
  /-- Named by a header of its own. -/
  | header
  /-- Passed through by the header of another table. -/
  | parent
  /-- Passed through by a dotted key. -/
  | dotted
  deriving DecidableEq, Repr

inductive Toml where
  | string (s : String)
  | integer (i : Int)
  | float (x : Float)
  | bool (b : Bool)
  /-- A date or a time of day, which no setting holds. -/
  | moment
  | array (items : List Toml)
  | table (origin : Toml.Origin) (members : List (String × Toml))
  /-- Tables that share a header in double brackets, oldest first. -/
  | tables (items : List (List (String × Toml)))

namespace Toml

abbrev Members := List (String × Toml)

def replace (key : String) (v : Toml) (ms : Members) : Members :=
  ms.map fun (k, old) => (k, if k = key then v else old)

def put (key : String) (v : Toml) (ms : Members) : Members :=
  if (ms.lookup key).isSome then replace key v ms else ms ++ [(key, v)]

/-- Changes the table at the end of a path, and makes the tables on the way that are missing. The
path runs through the latest of the tables that share a header. A path of dotted keys stays out of
tables that have a header of their own, and no path enters a value. -/
def enter (dotted : Bool) : List String → (Origin → Members → Option Members) → Origin → Members →
    Option Members
  | [], change, origin, ms => change origin ms
  | k :: path, change, _, ms =>
    match ms.lookup k with
    | none =>
      let origin := if dotted then Origin.dotted else .parent
      (enter dotted path change origin []).map fun sub => put k (.table origin sub) ms
    | some (.table .inline _) => none
    | some (.table origin sub) =>
      if dotted ∧ origin = .header then none
      else (enter dotted path change origin sub).map fun sub => put k (.table origin sub) ms
    | some (.tables items) =>
      (enter dotted path change .header (items.getLastD [])).map fun sub =>
        put k (.tables (items.dropLast ++ [sub])) ms
    | some _ => none

/-- Adds a member behind a path of dotted keys. No key is given twice, and dotted keys add only to
tables that dotted keys have made. -/
def insert (path : List String) (key : String) (v : Toml) (origin : Origin) (ms : Members) :
    Option Members :=
  let add (origin : Origin) (ms : Members) : Option Members :=
    if (path ≠ [] ∧ origin ≠ .dotted) ∨ (ms.lookup key).isSome then none else some (put key v ms)
  enter true path add origin ms

/-- Opens the table of a header. A table has one header at most, and none if anything but other
headers has made it. -/
def openTable (key : String) (ms : Members) : Option Members :=
  match ms.lookup key with
  | none => some (put key (.table .header []) ms)
  | some (.table .parent sub) => some (put key (.table .header sub) ms)
  | some _ => none

def openNextTable (key : String) (ms : Members) : Option Members :=
  match ms.lookup key with
  | none => some (put key (.tables [[]]) ms)
  | some (.tables items) => some (put key (.tables (items ++ [[]])) ms)
  | some _ => none

end Toml

end AgentBroker
