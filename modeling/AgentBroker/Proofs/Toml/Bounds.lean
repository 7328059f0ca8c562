import AgentBroker.Proofs.Yields
import AgentBroker.Toml.Document

/-!
# The integers of a document

Whatever a document spells, in whatever notation and however deep in its tables and arrays, its
integers fit 64 bits with a sign.
-/

namespace AgentBroker.Toml

/-- No integer in the value is above the largest one of 64 bits with a sign. -/
inductive Fits : Toml → Prop
  | string (s : String) : Fits (.string s)
  | integer {i : Int} (le : i ≤ Int64.maxValue.toInt) : Fits (.integer i)
  | float (x : Float) : Fits (.float x)
  | bool (b : Bool) : Fits (.bool b)
  | moment : Fits .moment
  | array {items : List Toml} (all : ∀ v ∈ items, Fits v) : Fits (.array items)
  | table {origin : Origin} {ms : Members} (all : ∀ m ∈ ms, Fits m.2) : Fits (.table origin ms)
  | tables {items : List Members} (all : ∀ ms ∈ items, ∀ m ∈ ms, Fits m.2) : Fits (.tables items)

def AllFit (ms : Members) : Prop := ∀ m ∈ ms, m.2.Fits

variable {ms : Members} {key : String} {v : Toml}

theorem allFit_nil : AllFit [] := nofun

theorem AllFit.lookup (h : AllFit ms) : Yields Fits (ms.lookup key) := by
  intro v found
  induction ms with
  | nil => cases found
  | cons m ms ih =>
    obtain ⟨first, others⟩ := List.forall_mem_cons.mp h
    rw [List.lookup_cons] at found
    split at found
    · cases found
      exact first
    · exact ih others found

theorem AllFit.put (h : AllFit ms) (fits : v.Fits) : AllFit (put key v ms) := by
  intro m mem
  rw [Toml.put] at mem
  split at mem
  · obtain ⟨old, before, rfl⟩ := List.mem_map.mp mem
    dsimp only
    split
    · exact fits
    · exact h old before
  · rcases List.mem_append.mp mem with before | new
    · exact h m before
    · rw [List.mem_singleton.mp new]
      exact fits

theorem AllFit.enter {dotted : Bool} {path : List String}
    {change : Origin → Members → Option Members}
    (keeps : ∀ origin ms, AllFit ms → Yields AllFit (change origin ms)) {origin : Origin}
    (h : AllFit ms) : Yields AllFit (enter dotted path change origin ms) := by
  induction path generalizing origin ms with
  | nil => exact keeps origin ms h
  | cons k path ih =>
    rw [Toml.enter]
    split
    next => exact (ih allFit_nil).map fun sub fits => h.put (.table fits)
    next => exact .none
    next origin sub _ found =>
      have fits : AllFit sub := by
        cases h.lookup _ found with
        | table all => exact all
      split
      · exact .none
      · exact (ih fits).map fun sub fits => h.put (.table fits)
    next items found =>
      have fits : ∀ ms ∈ items, AllFit ms := by
        cases h.lookup _ found with
        | tables all => exact all
      have last : AllFit (items.getLastD []) := by
        rcases List.mem_cons.mp List.getLastD_mem_cons with none | mem
        · rw [none]
          exact allFit_nil
        · exact fits _ mem
      refine (ih last).map fun sub fits' => h.put (.tables ?_)
      intro ms mem
      rcases List.mem_append.mp mem with before | new
      · exact fits ms (List.dropLast_subset items before)
      · rw [List.mem_singleton.mp new]
        exact fits'
    next => exact .none

theorem AllFit.insert (h : AllFit ms) (path : List String) (key : String) (fits : v.Fits)
    (origin : Origin) : Yields AllFit (insert path key v origin ms) := by
  apply h.enter
  intro origin ms h
  split
  · exact .none
  · exact .pure (h.put fits)

theorem AllFit.openTable (h : AllFit ms) (key : String) : Yields AllFit (openTable key ms) := by
  rw [Toml.openTable]
  split
  next => exact .pure (h.put (.table nofun))
  next found =>
    have fits := h.lookup _ found
    cases fits with
    | table all => exact .pure (h.put (.table all))
  next => exact .none

theorem AllFit.openNextTable (h : AllFit ms) (key : String) :
    Yields AllFit (openNextTable key ms) := by
  rw [Toml.openNextTable]
  split
  next => exact .pure (h.put (.tables (by simp)))
  next items found =>
    have fits : ∀ ms ∈ items, AllFit ms := by
      cases h.lookup _ found with
      | tables all => exact all
    refine .pure (h.put (.tables ?_))
    intro ms mem
    rcases List.mem_append.mp mem with before | new
    · exact fits ms before
    · rw [List.mem_singleton.mp new]
      exact nofun
  next => exact .none

/-- A reader gives values that fit. -/
def ReadsFitting (read : ValueReader) : Prop := ∀ cs, Yields (fun p => p.1.Fits) (read cs)

theorem yields_boundedInteger? (i : Int) : Yields Fits (boundedInteger? i) := by
  rw [boundedInteger?]
  split
  next within => exact .pure (.integer within.2)
  next => exact .none

theorem yields_basedInteger? (base : Nat) (isDigit : Char → Bool) (cs : List Char) :
    Yields (fun p => p.1.Fits) (basedInteger? base isDigit cs) := by
  rw [basedInteger?]
  exact .bind_any fun digits => (yields_boundedInteger? _).bind fun v fits => .pure fits

theorem yields_boundedFloat? (negative : Bool) (digits : Nat) (exponent : Int) :
    Yields Fits (boundedFloat? negative digits exponent) := by
  rw [boundedFloat?]
  split
  · exact .none
  · exact .pure (.float _)

theorem yields_decimal? : ReadsFitting decimal? := by
  intro cs
  rw [decimal?]
  refine .bind_any fun whole => .bind_any fun fraction => .bind_any fun exponent => ?_
  dsimp only
  split
  · exact (yields_boundedInteger? _).bind fun v fits => .pure fits
  · exact (yields_boundedFloat? _ _ _).bind fun v fits => .pure fits

theorem yields_special? : ReadsFitting special? := by
  intro cs
  rw [special?]
  dsimp only
  split
  · exact .pure (.float _)
  · exact .pure (.float _)
  · exact .none

theorem yields_number? : ReadsFitting number? := by
  intro cs
  rw [number?.eq_def]
  split
  · exact yields_basedInteger? _ _ _
  · exact yields_basedInteger? _ _ _
  · exact yields_basedInteger? _ _ _
  · exact (yields_special? cs).or (yields_decimal? cs)

theorem yields_literal? : ReadsFitting literal? := by
  intro cs
  rw [literal?.eq_def]
  split
  · exact .pure (.bool true)
  · exact .pure (.bool false)
  · refine Yields.or ?_ (yields_number? cs)
    rw [moment?]
    exact (Yields.of_forall (fun _ => trivial) _).map fun _ _ => .moment

theorem yields_scalar? : ReadsFitting scalar? := by
  intro cs
  have string (o : Option (List Char × List Char)) : Yields (fun p : Toml × List Char => p.1.Fits)
      (o.map fun p => (.string (String.ofList p.1), p.2)) :=
    (Yields.of_forall (fun _ => trivial) o).map fun _ _ => .string _
  rw [scalar?.eq_def]
  split
  · exact string _
  · exact string _
  · exact yields_literal? cs

variable {read : ValueReader}

theorem yields_items? (h : ReadsFitting read) (n : Nat) (cs : List Char) :
    Yields (fun p => ∀ v ∈ p.1, v.Fits) (items? read n cs) := by
  induction n generalizing cs with
  | zero => exact .none
  | succ n ih =>
    rw [items?]
    refine .bind_any fun cs => ?_
    split
    · exact .pure nofun
    · refine (h _).bind fun first fits => .bind_any fun behind => ?_
      dsimp only
      split
      · exact (ih _).map fun more others => List.forall_mem_cons.mpr ⟨fits, others⟩
      · exact .pure (by simpa using fits)
      · exact .none

theorem yields_member? (h : ReadsFitting read) (cs : List Char) :
    Yields (fun p => p.1.2.2.Fits) (member? read cs) := by
  rw [member?]
  refine .bind_any fun path => ?_
  dsimp only
  split
  · exact (h _).bind fun v fits => .pure fits
  · exact .none

theorem yields_members? (h : ReadsFitting read) (n : Nat) {ms : Members} (all : AllFit ms)
    (cs : List Char) : Yields (fun p => AllFit p.1) (members? read n ms cs) := by
  induction n generalizing ms cs with
  | zero => exact .none
  | succ n ih =>
    rw [members?]
    refine (yields_member? h cs).bind fun member fits => ?_
    refine (all.insert _ _ fits _).bind fun ms all => ?_
    split
    · exact ih all _
    · exact .pure all
    · exact .none

theorem yields_value? (depth : Nat) : ReadsFitting (value? depth) := by
  induction depth with
  | zero => exact yields_scalar?
  | succ depth ih =>
    intro cs
    rw [value?.eq_def]
    dsimp only
    split
    · exact (yields_items? ih _ _).map fun p all => .array all
    · split
      · exact .pure (.table allFit_nil)
      · exact (yields_members? ih _ allFit_nil _).map fun p all => .table all
    · exact yields_scalar? cs

namespace Reading

variable {r : Reading}

theorem yields_openAt (h : AllFit r.root) (path : List String)
    {opens : String → Members → Option Members}
    (keeps : ∀ key ms, AllFit ms → Yields AllFit (opens key ms)) :
    Yields (fun r => AllFit r.root) (r.openAt path opens) := by
  rw [openAt]
  exact (h.enter fun _ ms all => keeps _ ms all).map fun root all => all

theorem yields_add (h : AllFit r.root) (path : List String) (key : String) (fits : v.Fits) :
    Yields (fun r => AllFit r.root) (r.add path key v) := by
  rw [add]
  exact (h.enter fun origin ms all => all.insert path key fits origin).map fun root all => all

theorem yields_line? (h : AllFit r.root) (cs : List Char) :
    Yields (fun p => AllFit p.1.root) (r.line? cs) := by
  rw [line?.eq_def]
  split
  · refine .bind_any fun path => ?_
    dsimp only
    split
    · exact (yields_openAt h _ fun key ms all => all.openNextTable key).bind fun r all =>
        .bind_any fun rest => .pure all
    · exact .none
  · refine .bind_any fun path => ?_
    dsimp only
    split
    · exact (yields_openAt h _ fun key ms all => all.openTable key).bind fun r all =>
        .bind_any fun rest => .pure all
    · exact .none
  · exact (yields_member? (yields_value? maxDepth) cs).bind fun member fits =>
      (yields_add h _ _ fits).bind fun r all => .bind_any fun rest => .pure all

theorem yields_lines? (n : Nat) (h : AllFit r.root) (cs : List Char) :
    Yields (fun r => AllFit r.root) (lines? n r cs) := by
  induction n generalizing r cs with
  | zero => exact .none
  | succ n ih =>
    rw [lines?]
    split
    · exact .pure h
    · exact ih h _
    · exact ih h _
    · exact .bind_any fun cs => ih h cs
    · exact (yields_line? h _).bind fun p all => ih all p.2

end Reading

theorem yields_parse? (text : String) : Yields Fits (parse? text) := by
  rw [parse?, ofChars?.eq_def]
  refine Yields.map ?_ fun ms all => .table all
  exact (Reading.yields_lines? _ allFit_nil _).map fun r all => all

end AgentBroker.Toml
