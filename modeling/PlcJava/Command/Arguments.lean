/-! The arguments of the command `plc <path> [-o|--output <path>] [-f|--format <format>]`, read
from left to right. The first argument that settles the matter wins: help before a mistake is
help, and help behind a mistake is a mistake. -/

set_option autoImplicit false

namespace PlcJava.Command

inductive Format where
  | java
  | tokens
  | outline
deriving DecidableEq

def Format.ofName? : String → Option Format
  | "java" => some .java
  | "tokens" => some .tokens
  | "ast" => some .outline
  | _ => none

/-- A source to compile, where to put the result, and what the result is. -/
structure Request where
  path : String
  output : Option String
  format : Format
deriving DecidableEq

inductive Invocation where
  | help
  | version
  | misuse
  | compile (request : Request)
deriving DecidableEq

/-- The options that take a value. -/
inductive Setting where
  | output
  | format
deriving DecidableEq

/-- What one argument is, by itself. -/
inductive Word where
  /-- Two dashes alone, behind which nothing is an option. -/
  | separator
  | help
  | version
  /-- An option with the value that is attached to it, if any. -/
  | setting (setting : Setting) (attached : Option String)
  | unknown
  /-- A path or a value: a lone dash and the empty text are plain, too. -/
  | plain
deriving DecidableEq

namespace Word

/-- An argument behind its two dashes: a name, or a name with a value behind the first `=`. The
flags take no value, not even an empty one. -/
def ofLong (cs : List Char) : Word :=
  let attached :=
    match cs.dropWhile (· ≠ '=') with
    | [] => none
    | _ :: value => some (String.ofList value)
  match String.ofList (cs.takeWhile (· ≠ '=')), attached with
  | "help", none => .help
  | "version", none => .version
  | "output", attached => .setting .output attached
  | "format", attached => .setting .format attached
  | _, _ => .unknown

/-- The value behind a short option, without the sign between them. -/
def attached : List Char → Option String
  | [] => none
  | '=' :: value => some (String.ofList value)
  | value => some (String.ofList value)

/-- An argument behind its one dash: a letter, and whatever follows it. The two flags settle the
matter, so what follows them is not looked at. -/
def ofShort (c : Char) (cs : List Char) : Word :=
  match c with
  | 'h' => .help
  | 'V' => .version
  | 'o' => .setting .output (attached cs)
  | 'f' => .setting .format (attached cs)
  | _ => .unknown

def ofArgument (argument : String) : Word :=
  match argument.toList with
  | ['-', '-'] => .separator
  | '-' :: '-' :: cs => ofLong cs
  | '-' :: c :: cs => ofShort c cs
  | _ => .plain

end Word

/-- What the arguments so far have fixed. -/
structure Given where
  path : Option String
  output : Option String
  format : Option Format

namespace Given

def nothing : Given := ⟨none, none, none⟩

def setPath (given : Given) (path : String) : Option Given :=
  match given.path with
  | none => some { given with path := some path }
  | some _ => none

/-- No option is given twice, and the name of a format is one of the three. -/
def set (given : Given) (setting : Setting) (value : String) : Option Given :=
  match setting, given.output, given.format with
  | .output, none, _ => some { given with output := some value }
  | .format, _, none => (Format.ofName? value).map fun format => { given with format := some format }
  | _, _, _ => none

def request (given : Given) : Invocation :=
  match given.path with
  | none => .misuse
  | some path => .compile ⟨path, given.output, given.format.getD .java⟩

def paths (given : Given) : List String → Invocation
  | [] => given.request
  | argument :: others =>
    match given.setPath argument with
    | none => .misuse
    | some given => given.paths others

/-- A value that is not attached to its option is the next argument, if that one is plain. -/
def arguments (given : Given) : List String → Invocation
  | [] => given.request
  | argument :: others =>
    match Word.ofArgument argument with
    | .separator => given.paths others
    | .help => .help
    | .version => .version
    | .unknown => .misuse
    | .plain =>
      match given.setPath argument with
      | none => .misuse
      | some given => given.arguments others
    | .setting setting (some value) =>
      match given.set setting value with
      | none => .misuse
      | some given => given.arguments others
    | .setting setting none =>
      match others with
      | [] => .misuse
      | value :: others =>
        match Word.ofArgument value, given.set setting value with
        | .plain, some given => given.arguments others
        | _, _ => .misuse

end Given

def Invocation.ofArguments (arguments : List String) : Invocation := Given.nothing.arguments arguments

end PlcJava.Command
