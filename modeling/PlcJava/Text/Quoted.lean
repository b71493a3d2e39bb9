/-! Text in double quotes, on one line. Quotes and backslashes are escaped, and so is every
character that is held to be hidden. -/

set_option autoImplicit false

namespace PlcJava.Quoted

variable (hidden : Char → Bool)

def escape (c : Char) : List Char :=
  if c = '"' then ['\\', '"']
  else if c = '\\' then ['\\', '\\']
  else if c = '\n' then ['\\', 'n']
  else if c = '\r' then ['\\', 'r']
  else if c = '\t' then ['\\', 't']
  else if c = '\x00' then ['\\', '0']
  else if hidden c then ['\\', 'u', '\x7b'] ++ Nat.toDigits 16 c.toNat ++ ['\x7d']
  else [c]

def encode (text : String) : String :=
  String.ofList ('"' :: text.toList.flatMap (escape hidden) ++ ['"'])

end PlcJava.Quoted
