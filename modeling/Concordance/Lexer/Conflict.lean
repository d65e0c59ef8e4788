import Concordance.Lexer.Automaton

/-!
How two tokens can get in each other's way when a scanner looks for both. The answers decide which
states of a parser may share a scanner and which tokens a scanner looks for while it repairs a text.
-/

namespace Concordance.Lexer

/-- What one token does to another when both are looked for. -/
structure Status where
  /-- It ends where the other one, begun by the same characters, goes on instead. -/
  stopsShort : Bool := false
  /-- It goes on where the other one ends. -/
  goesOn : Bool := false
  /-- It goes on with a character that could as well begin what follows the other one. -/
  goesOnIntoNext : Bool := false
  /-- It can end where blanks before the other one can still be read. -/
  endsInBlanks : Bool := false
  /-- It is taken where both match one text. -/
  sameText : Bool := false
  /-- It matches a text that the other one does not. -/
  otherText : Bool := false
deriving DecidableEq, Repr, Inhabited

/-- The statuses of tokens `i` and `j` towards each other. `after` gives the classes of characters that
can follow a token. -/
def comparePair (a : Automaton) (after : Nat → Nat) (i j : Nat) : Status × Status := Id.run do
  let mut x : Status := {}
  let mut y : Status := {}
  let mut seen : List (List Nat) := []
  let mut todo : List (List Nat) := [[a.entry.getD i 0, a.entry.getD j 0]]
  for _ in [0:100000] do
    match todo with
    | [] => break
    | states :: rest =>
      todo := rest
      match a.owners states with
      | [] => pure ()
      | [t] => if t = i then x := { x with otherText := true } else y := { y with otherText := true }
      | _ =>
        let closed := a.close states
        let blanks := a.inBlanks closed
        let mut done : Option (Nat × Int) := none
        for c in a.completions closed do
          if blanks then
            if c.1 = i then x := { x with endsInBlanks := true }
            else y := { y with endsInBlanks := true }
          match done with
          | none => done := some c
          | some d =>
            if d.1 ≠ c.1 then
              let best := if a.prefersToken d c then d else c
              done := some best
              if best.1 = i then x := { x with sameText := true } else y := { y with sameText := true }
        for m in a.moves closed do
          match done with
          | none => pure ()
          | some d =>
            let owners := a.owners m.next
            if !owners.contains d.1 then
              match owners.getLast? with
              | none => pure ()
              | some other =>
                if a.prefersMove m d blanks then
                  if other = i then
                    x := { x with goesOn := true, goesOnIntoNext := x.goesOnIntoNext || m.classes &&& after j != 0 }
                  else
                    y := { y with goesOn := true, goesOnIntoNext := y.goesOnIntoNext || m.classes &&& after i != 0 }
                else if d.1 = i then x := { x with stopsShort := true }
                else y := { y with stopsShort := true }
          if !seen.contains m.next then
            seen := m.next :: seen
            todo := m.next :: todo
  return (x, y)

/-- The statuses of all pairs of tokens. Row `i` tells, as sets of tokens, what token `i` does to them. -/
structure Conflicts where
  stopsShort : Array Nat
  goesOn : Array Nat
  goesOnIntoNext : Array Nat
  endsInBlanks : Array Nat
  sameText : Array Nat
  otherText : Array Nat
deriving Inhabited

namespace Conflicts

def record (rows : Array Nat) (holds : Bool) (i j : Nat) : Array Nat :=
  if holds then rows.modify i fun m => m ||| (1 <<< j) else rows

def add (c : Conflicts) (s : Status) (i j : Nat) : Conflicts :=
  { stopsShort := record c.stopsShort s.stopsShort i j
    goesOn := record c.goesOn s.goesOn i j
    goesOnIntoNext := record c.goesOnIntoNext s.goesOnIntoNext i j
    endsInBlanks := record c.endsInBlanks s.endsInBlanks i j
    sameText := record c.sameText s.sameText i j
    otherText := record c.otherText s.otherText i j }

def none (n : Nat) : Conflicts :=
  let z := Array.replicate n 0
  ⟨z, z, z, z, z, z⟩

def has (rows : Array Nat) (i j : Nat) : Bool := (rows.getD i 0).testBit j

/-- Compares all tokens but the end of the text. `following` gives the tokens that can follow a token. -/
def ofAutomaton (a : Automaton) (following : Array Nat) : Conflicts := Id.run do
  let n := a.tokens.size
  let starts := (Array.range n).map a.startClasses
  let afters := following.map fun tokens =>
    (List.range n).foldl (fun m t => if t ≠ 0 && tokens.testBit t then m ||| starts.getD t 0 else m) 0
  let mut c := Conflicts.none n
  for i in [1:n] do
    for j in [1:i] do
      let (x, y) := comparePair a (afters.getD · 0) i j
      c := (c.add x i j).add y j i
  return c

/-- Token `i` could be read where `j` was meant. -/
def conflicts (c : Conflicts) (i j : Nat) : Bool :=
  has c.goesOnIntoNext i j || has c.endsInBlanks i j || has c.sameText i j

/-- Token `i` shares a beginning with `j`. -/
def overlaps (c : Conflicts) (i j : Nat) : Bool :=
  has c.endsInBlanks i j || has c.stopsShort i j || has c.sameText i j || has c.goesOn i j

/-- Token `i` may end sooner or later than `j` on one text. -/
def differsInLength (c : Conflicts) (i j : Nat) : Bool :=
  (has c.goesOnIntoNext i j || has c.endsInBlanks i j) && !has c.endsInBlanks j i

/-- Tokens `i` and `k` stand in the same relation to `j`. -/
def sameTowards (c : Conflicts) (i k j : Nat) : Bool :=
  [c.stopsShort, c.goesOn, c.goesOnIntoNext, c.endsInBlanks, c.sameText, c.otherText].all fun rows =>
    has rows i j == has rows k j

end Conflicts

end Concordance.Lexer
