import AgentBroker.Logging.Settings

/-!
# Log filters

A filter is a list of directives with commas between them. A directive shows the events of all
targets with a name in front up to a level; of several such directives the one with the longest name
counts, of equal ones the last. Directives about spans show nothing outside of these spans.
-/

namespace AgentBroker

structure LogEvent where
  level : LogLevel
  target : String
  message : String
  deriving DecidableEq, Repr

inductive LogDirective where
  /-- Shows events whose target begins so, up to the rank of a level. -/
  | events (target : String) (rank : Nat)
  | spans
  deriving DecidableEq, Repr

namespace LogDirective

def rank? (s : String) : Option Nat :=
  match s.map Char.toLower with
  | "off" | "0" => some 0
  | "error" | "1" => some 1
  | "warn" | "2" => some 2
  | "info" | "3" => some 3
  | "debug" | "4" => some 4
  | "trace" | "5" => some 5
  | _ => none

def everything : Nat := 5

def trimBlanks (cs : List Char) : List Char :=
  ((cs.dropWhile isBlank).reverse.dropWhile isBlank).reverse

/-- The directive that a text spells: a level, a target, or both with `=` between them. -/
def ofChars? (cs : List Char) : Option LogDirective :=
  match trimBlanks cs with
  | [] => some (.events "" everything)
  | c :: cs =>
    if (c :: cs).contains '[' then some .spans
    else if !(c.isAlphanum || 0x80 ≤ c.toNat || ['-', ':', '_'].contains c) then none
    else
      let name := String.ofList ((c :: cs).takeWhile (· != '='))
      match (c :: cs).dropWhile (· != '=') with
      | [] =>
        match rank? name with
        | some rank => some (.events "" rank)
        | none => some (.events name everything)
      | ['='] => some (.events name everything)
      | _ :: level => (rank? (String.ofList level)).map (.events name)

end LogDirective

abbrev LogFilter := List LogDirective

namespace LogFilter

def pieces : List Char → List (List Char)
  | [] => [[]]
  | ',' :: cs => [] :: pieces cs
  | c :: cs =>
    match pieces cs with
    | [] => [[c]]
    | p :: ps => (c :: p) :: ps

/-- The filter that a text spells. What is no directive counts for nothing; a text without any shows
errors. -/
def parse (s : String) : LogFilter :=
  match ((pieces s.toList).filter (· != [])).filterMap LogDirective.ofChars? with
  | [] => [.events "" LogLevel.error.rank]
  | ds => ds

/-- The rank up to which a target is shown, with the length of the name that counts. -/
def better (target : String) (best : Option (Nat × Nat)) : LogDirective → Option (Nat × Nat)
  | .spans => best
  | .events name rank =>
    if name.toList.isPrefixOf target.toList then
      match best with
      | some (length, _) => if length ≤ name.length then some (name.length, rank) else best
      | none => some (name.length, rank)
    else best

def shows (f : LogFilter) (e : LogEvent) : Bool :=
  match f.foldl (better e.target) none with
  | some (_, rank) => e.level.rank ≤ rank
  | none => false

end LogFilter

end AgentBroker
