import AgentBroker.Config.Problem

/-!
# Files

The files below a directory, by their paths, and the directories on the way to them.
-/

namespace AgentBroker

structure Files where
  /-- The parts of each path, and what the file holds. -/
  files : List (List String × String)
  /-- Directories that are there even without a file. -/
  directories : List (List String)

namespace Files

def parts (path : String) : List String := (path.splitOn "/").filter fun p => p != "" && p != "."

def ofList (files : List (String × String)) (directories : List String) : Files :=
  ⟨files.map fun (path, text) => (parts path, text), directories.map parts⟩

def isDirectory (f : Files) (path : List String) : Bool :=
  path.isEmpty || f.directories.any path.isPrefixOf ||
    f.files.any fun (p, _) => path.isPrefixOf p && p != path

/-- Follows parts from a directory; none is the directory above all. -/
def walk (f : Files) (here : List String) : List String → Except FileFlaw (List String)
  | [] => .ok here
  | p :: ps =>
    if !f.isDirectory here then
      .error (if (f.files.lookup here).isSome then .throughFile else .missing)
    else if p = ".." then if here = [] then .error .missing else f.walk here.dropLast ps
    else f.walk (here ++ [p]) ps

def read (f : Files) (path : String) : Except FileFlaw String := do
  if path.startsWith "/" then throw .missing
  let p ← f.walk [] (parts path)
  if f.isDirectory p then throw .isDirectory
  match f.files.lookup p with
  | some text => if path.endsWith "/" then throw .throughFile else return text
  | none => throw .missing

end Files

end AgentBroker
