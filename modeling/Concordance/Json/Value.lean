/-!
Values as JSON text. The short form has no white space; the spread form has a line for each member,
two blanks deeper than what it belongs to. Strings are written as they are but for quotes, backslashes
and control characters.
-/

namespace Concordance.Json

inductive Value where
  | null
  | bool (value : Bool)
  | number (value : Nat)
  | string (value : String)
  | array (items : List Value)
  | object (members : List (String × Value))

instance : Inhabited Value := ⟨.null⟩

/-- A list of strings. -/
def Value.strings (items : List String) : Value := .array (items.map .string)

def hexDigit (n : Nat) : Char := Nat.digitChar n

/-- How a character is written inside a string. -/
def escape (c : Char) : List Char :=
  match c with
  | '"' => ['\\', '"']
  | '\\' => ['\\', '\\']
  | '\n' => ['\\', 'n']
  | '\r' => ['\\', 'r']
  | '\t' => ['\\', 't']
  | '\x08' => ['\\', 'b']
  | '\x0c' => ['\\', 'f']
  | c =>
    if c.toNat < 32 then ['\\', 'u', '0', '0', hexDigit (c.toNat / 16), hexDigit (c.toNat % 16)]
    else [c]

/-- A string in quotes. -/
def quote (s : String) : List Char := '"' :: s.toList.flatMap escape ++ ['"']

/-- Pieces with a separator between them. -/
def joined (separator : List Char) : List (List Char) → List Char
  | [] => []
  | [p] => p
  | p :: rest => p ++ separator ++ joined separator rest

/-- The text of a number, a truth value or nothing. -/
def Value.scalar : Value → List Char
  | null => "null".toList
  | bool true => "true".toList
  | bool false => "false".toList
  | number n => n.repr.toList
  | string s => quote s
  | array _ | object _ => []

mutual

/-- The short form of a value. -/
def Value.short : Value → List Char
  | .array items => '[' :: joined [','] (shortItems items) ++ [']']
  | .object members => '\x7b' :: joined [','] (shortMembers members) ++ ['\x7d']
  | .null => Value.null.scalar
  | .bool b => (Value.bool b).scalar
  | .number n => (Value.number n).scalar
  | .string s => (Value.string s).scalar

def shortItems : List Value → List (List Char)
  | [] => []
  | v :: rest => v.short :: shortItems rest

def shortMembers : List (String × Value) → List (List Char)
  | [] => []
  | (k, v) :: rest => (quote k ++ [':'] ++ v.short) :: shortMembers rest

end

/-- A line break and the blanks of a depth. -/
def newline (depth : Nat) : List Char := '\n' :: List.replicate (2 * depth) ' '

/-- Pieces on lines of their own, between brackets; brackets alone if there are none. -/
def spreadOut (depth : Nat) (opening closing : Char) (pieces : List (List Char)) : List Char :=
  if pieces.isEmpty then [opening, closing]
  else opening :: newline (depth + 1) ++ joined (',' :: newline (depth + 1)) pieces ++
    newline depth ++ [closing]

mutual

/-- The spread form of a value at some depth. -/
def Value.spread (depth : Nat) : Value → List Char
  | .array items => spreadOut depth '[' ']' (spreadItems (depth + 1) items)
  | .object members => spreadOut depth '\x7b' '\x7d' (spreadMembers (depth + 1) members)
  | .null => Value.null.scalar
  | .bool b => (Value.bool b).scalar
  | .number n => (Value.number n).scalar
  | .string s => (Value.string s).scalar

def spreadItems (depth : Nat) : List Value → List (List Char)
  | [] => []
  | v :: rest => v.spread depth :: spreadItems depth rest

def spreadMembers (depth : Nat) : List (String × Value) → List (List Char)
  | [] => []
  | (k, v) :: rest => (quote k ++ [':', ' '] ++ v.spread depth) :: spreadMembers depth rest

end

/-- The text of a value in the short form. -/
def Value.compact (v : Value) : String := String.ofList v.short

/-- The text of a value in the spread form. -/
def Value.pretty (v : Value) : String := String.ofList (v.spread 0)

end Concordance.Json
