/-! A directory of files, and the paths that are looked up from inside it. -/

set_option autoImplicit false

namespace PlcJava.Command

inductive FileError where
  /-- What the system says, and its number for it. -/
  | system (description : String) (code : Nat)
  | invalidText
deriving DecidableEq

namespace FileError

def notFound : FileError := .system "No such file or directory" 2

def notDirectory : FileError := .system "Not a directory" 20

def isDirectory : FileError := .system "Is a directory" 21

def reason : FileError → String
  | .system description code => description ++ " (os error " ++ code.repr ++ ")"
  | .invalidText => "stream did not contain valid UTF-8"

end FileError

/-- Names and contents. There are no directories inside. -/
structure Directory where
  files : List (String × ByteArray)

/-- Where a path leads. -/
inductive Place where
  /-- To this directory, or to one around it. -/
  | directory
  /-- To a name in this directory, of a file that exists or that may be made. -/
  | name (name : String)
  /-- To a name that the path takes for a directory by a slash at its end. -/
  | slashed (name : String)
  /-- On from a file, as if it were a directory. -/
  | beneathFile
  | nowhere
deriving DecidableEq

namespace Directory

def get? (directory : Directory) (name : String) : Option ByteArray :=
  (directory.files.find? fun file => file.1 = name).map (·.2)

def put (directory : Directory) (name : String) (contents : ByteArray) : Directory :=
  ⟨directory.files.filter (fun file => file.1 ≠ name) ++ [(name, contents)]⟩

theorem get?_put_self (directory : Directory) (name : String) (contents : ByteArray) :
    (directory.put name contents).get? name = some contents := by
  have absent : (directory.files.filter fun file => file.1 ≠ name).find? (fun file => file.1 = name) = none := by
    apply List.find?_eq_none.mpr
    intro file member
    simpa using (List.mem_filter.mp member).2
  simp only [get?, put, List.find?_append, absent]
  simp

/-- Every other file stays as it was. -/
theorem get?_put_of_ne (directory : Directory) {name other : String} (contents : ByteArray)
    (different : other ≠ name) : (directory.put name contents).get? other = directory.get? other := by
  have kept : (directory.files.filter fun file => file.1 ≠ name).find? (fun file => file.1 = other) =
      directory.files.find? fun file => file.1 = other := by
    rw [List.find?_filter]
    congr 1
    funext file
    by_cases same : file.1 = other
    · simp [same, different]
    · simp [same]
  simp only [get?, put, List.find?_append, kept]
  cases directory.files.find? (fun file => file.1 = other) <;> simp [different.symm]

/-- A step up leaves the directory. Nothing is known out there, except that the directories
around this one exist. -/
def above : List String → Place
  | [] => .directory
  | step :: others => if step = "." ∨ step = ".." ∨ step = "" then above others else .nowhere

/-- Follow the steps of a path, which are its parts between slashes. -/
def follow (directory : Directory) : List String → Place
  | [] => .directory
  | step :: others =>
    if step = "." ∨ step = "" then directory.follow others
    else if step = ".." then above others
    else if others.isEmpty then .name step
    else if others.all (· = "") then .slashed step
    else if (directory.get? step).isSome then .beneathFile
    else .nowhere

def locate (directory : Directory) (path : String) : Place :=
  if path = "" then .nowhere
  else
    match path.toList with
    | '/' :: _ => above (path.splitOn "/")
    | _ => directory.follow (path.splitOn "/")

def read (directory : Directory) (path : String) : Except FileError ByteArray :=
  match directory.locate path with
  | .directory => .error .isDirectory
  | .name name =>
    match directory.get? name with
    | some contents => .ok contents
    | none => .error .notFound
  | .slashed name => .error (if (directory.get? name).isSome then .notDirectory else .notFound)
  | .beneathFile => .error .notDirectory
  | .nowhere => .error .notFound

/-- A file that exists is replaced. -/
def write (directory : Directory) (path : String) (contents : ByteArray) : Except FileError Directory :=
  match directory.locate path with
  | .directory => .error .isDirectory
  | .name name => .ok (directory.put name contents)
  | .slashed _ => .error .isDirectory
  | .beneathFile => .error .notDirectory
  | .nowhere => .error .notFound

/-- The files that are not in `before`, or not with the same contents. -/
def changes (before after : Directory) : List (String × ByteArray) :=
  after.files.filter fun file => (before.get? file.1).map ByteArray.data ≠ some file.2.data

end Directory

end PlcJava.Command
