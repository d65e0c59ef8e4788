import Concordance.Text.CharSet

/-!
The language in which a grammar is written. A `Rule` is a regular expression over characters and over
the names of other rules, with the marks that decide ambiguities and shape the tree.
-/

namespace Concordance.Grammar

/-- One right-hand side of a grammar, as its author writes it. -/
inductive Rule where
  | blank
  /-- Exactly these characters. -/
  | text (s : String)
  /-- One character of the set. -/
  | chars (s : CharSet)
  /-- Whatever the rule of that name accepts. -/
  | ref (name : String)
  | cat (first second : Rule)
  | alt (first second : Rule)
  /-- One or more times. -/
  | many1 (body : Rule)
  /-- The body is one token; blanks and comments may stand before it. -/
  | token (body : Rule)
  /-- The body is one token that starts exactly where the previous one ended. -/
  | immediate (body : Rule)
  /-- Binds tighter the greater the number is. -/
  | binds (level : Int) (body : Rule)
  | left (level : Int) (body : Rule)
  | right (level : Int) (body : Rule)
  /-- Preferred, when two readings of a text survive, by the greater number. -/
  | dynamic (level : Int) (body : Rule)
  /-- The child has this role in its parent. -/
  | field (role : String) (body : Rule)
  /-- The child shows under another name. -/
  | shownAs (name : String) (body : Rule)
deriving DecidableEq, Repr, Inhabited

namespace Rule

instance : Coe String Rule := ⟨Rule.text⟩

def seq : List Rule → Rule
  | [] => blank
  | [r] => r
  | r :: rest => cat r (seq rest)

def choice : List Rule → Rule
  | [] => blank
  | [r] => r
  | r :: rest => alt r (choice rest)

def opt (r : Rule) : Rule := alt r blank

def many (r : Rule) : Rule := alt (many1 r) blank

/-- One or more `r`, with `separator` between two. -/
def sepBy1 (separator r : Rule) : Rule := cat r (many (cat separator r))

def commaSep1 (r : Rule) : Rule := sepBy1 "," r

def commaSep (r : Rule) : Rule := opt (commaSep1 r)

end Rule

/-- A grammar: its rules in order, the first being where a text starts. -/
structure Description where
  rules : List (String × Rule)
  /-- The characters that separate tokens. -/
  blanks : CharSet
  /-- Tokens that may stand between any two tokens, and show in the tree. -/
  extras : List String
  /-- Rules that stand for a choice of others and show no node of their own. -/
  supertypes : List String
  /-- Rules that are replaced by their alternatives wherever they are named. -/
  inlined : List String
  /-- The token whose text the keywords share. -/
  word : String
deriving Inhabited

end Concordance.Grammar
