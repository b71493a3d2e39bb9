import PlcJava.Command.Arguments
import PlcJava.Command.Directory
import PlcJava.Compilation
import PlcJava.Outline
import PlcJava.Text.Hidden
import PlcJava.Token.Table

/-! The command. What it does to files is a value of its own, which can be carried out on a
directory in memory as well as on the disk. -/

set_option autoImplicit false

namespace PlcJava.Command

structure Outcome where
  status : Nat
  stdout : String
  stderr : String
deriving DecidableEq

inductive Action where
  | finish (outcome : Outcome)
  | read (path : String) (next : Except FileError ByteArray → Action)
  | write (path : String) (contents : String) (next : Except FileError Unit → Action)

/-- The text that is asked for. The stages are gone through one by one, up to the one whose result is
shown. -/
def Format.render (format : Format) (source : String) : Except CompileError String := do
  let tokens ← (lex source).mapError .lexical
  if format = .tokens then return Token.table tokens
  let statements ← (parse tokens).mapError .grammatical
  if format = .outline then return (Outline.program isHidden statements).render ++ "\n"
  return (Java.program statements).render

def usageText : String := "Usage: plc [OPTIONS] <path>\n"

def helpText : String :=
  "Compile a PLC program to Java\n\n" ++ usageText ++
  "\nArguments:\n" ++
  "  <path>  Path to the PLC source file\n" ++
  "\nOptions:\n" ++
  "  -o, --output <output>  Write the result to this file instead of stdout\n" ++
  "  -f, --format <format>  What to print: generated Java, the token stream, or the AST " ++
  "[default: java] [possible values: java, tokens, ast]\n" ++
  "  -h, --help             Print help\n" ++
  "  -V, --version          Print version\n"

def versionText : String := "plc 0.1.0\n"

namespace Outcome

def success (stdout : String) : Outcome := ⟨0, stdout, ""⟩

def failure (message : String) : Outcome := ⟨1, "", message ++ "\n"⟩

def unreadable (path : String) (error : FileError) : Outcome :=
  failure ("Error: could not read '" ++ path ++ "': " ++ error.reason)

def unwritable (path : String) (error : FileError) : Outcome :=
  failure ("Error: could not write '" ++ path ++ "': " ++ error.reason)

def misuse : Outcome := ⟨2, "", usageText⟩

end Outcome

namespace Request

def deliver (request : Request) (text : String) : Action :=
  match request.output with
  | none => .finish (.success text)
  | some path =>
    .write path text fun
      | .ok () => .finish (.success "")
      | .error error => .finish (.unwritable path error)

/-- Read, render and deliver. Nothing is written unless all of it is there to write. -/
def action (request : Request) : Action :=
  .read request.path fun
    | .error error => .finish (.unreadable request.path error)
    | .ok contents =>
      match String.fromUTF8? contents with
      | none => .finish (.unreadable request.path .invalidText)
      | some source =>
        match request.format.render source with
        | .error error => .finish (.failure error.message)
        | .ok text => request.deliver text

end Request

def Invocation.action : Invocation → Action
  | .help => .finish (.success helpText)
  | .version => .finish (.success versionText)
  | .misuse => .finish .misuse
  | .compile request => request.action

/-- Carry an action out on a directory in memory. A write that fails leaves it as it was. -/
def Action.runIn (directory : Directory) : Action → Outcome × Directory
  | .finish outcome => (outcome, directory)
  | .read path next => (next (directory.read path)).runIn directory
  | .write path contents next =>
    match directory.write path contents.toUTF8 with
    | .ok changed => (next (.ok ())).runIn changed
    | .error error => (next (.error error)).runIn directory

def run (arguments : List String) (directory : Directory) : Outcome × Directory :=
  (Invocation.ofArguments arguments).action.runIn directory

end PlcJava.Command
