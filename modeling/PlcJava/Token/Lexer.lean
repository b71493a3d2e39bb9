import PlcJava.Token.Scan

/-! The tokens of a text. A cursor remembers the characters that were read and given to no
token, so a text can be read on after a fault: the next token takes them as its beginning,
unless a blank drops them first. -/

set_option autoImplicit false

namespace PlcJava

structure LexError where
  fault : LexFault
  offset : Nat
deriving DecidableEq

def LexError.message (error : LexError) : String :=
  "Lexer error at offset " ++ error.offset.repr ++ ": " ++ error.fault.message

/-- A place in a text: how many characters stand before it, which of them, counted back from
there, still wait for a token, and what follows. -/
structure Cursor where
  offset : Nat
  pending : List Char
  rest : List Char
deriving DecidableEq

/-- What one pass over the rest of a text leaves: the tokens it completed, the error that
ended it, if any, and the place where it ended. -/
structure Sweep where
  tokens : List Token
  error? : Option LexError
  cursor : Cursor

/-- A failed pass answers with its error alone. -/
def Sweep.answer (sweep : Sweep) : Except LexError (List Token) :=
  match sweep.error? with
  | some error => .error error
  | none => .ok sweep.tokens

namespace Cursor

def ofString (source : String) : Cursor := ⟨0, [], source.toList⟩

/-- The token that ends with `text`, read from here. -/
def token (cursor : Cursor) (kind : Kind) (text : List Char) : Token :=
  ⟨kind, String.ofList (cursor.pending ++ text), cursor.offset - cursor.pending.length⟩

/-- An open string is reported where its quote stands, a dangling point behind the point. -/
def error (cursor : Cursor) (fault : LexFault) (text : List Char) : LexError :=
  match fault with
  | .danglingPoint => ⟨fault, cursor.offset + text.length⟩
  | .openString => ⟨fault, cursor.offset⟩

/-- One pass, to the end of the text or to its first fault. -/
def sweep : Cursor → Sweep
  | ⟨offset, pending, []⟩ => ⟨[], none, ⟨offset, pending, []⟩⟩
  | ⟨offset, pending, c :: cs⟩ =>
    if isBlank c then sweep ⟨offset + 1, [], cs⟩
    else
      let cursor : Cursor := ⟨offset, pending, c :: cs⟩
      let lexeme := Lexeme.scan c cs
      let after := offset + lexeme.text.length
      match lexeme.sort with
      | .ok kind =>
        let later := sweep ⟨after, [], lexeme.rest⟩
        { later with tokens := cursor.token kind lexeme.text :: later.tokens }
      | .error fault =>
        ⟨[], some (cursor.error fault lexeme.text), ⟨after, pending ++ lexeme.text, lexeme.rest⟩⟩
termination_by cursor => cursor.rest.length
decreasing_by
  · exact Nat.lt_succ_self _
  · exact Lexeme.scan_rest_shorter c cs

/-- The answers of `calls` passes, each begun where the one before ended. -/
def session (cursor : Cursor) : Nat → List (Except LexError (List Token))
  | 0 => []
  | calls + 1 => cursor.sweep.answer :: cursor.sweep.cursor.session calls

end Cursor

/-- All tokens of a text, or the first place where it cannot be read. -/
def lex (source : String) : Except LexError (List Token) := (Cursor.ofString source).sweep.answer

end PlcJava
