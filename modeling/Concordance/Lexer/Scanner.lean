import Concordance.Lexer.Conflict

/-!
Scanners: the automaton of the tokens made deterministic for the sets of tokens that a parser looks for.
A scanner takes the longest token, and among tokens of one length the one that counts most.
-/

namespace Concordance.Lexer

open Grammar

/-- A state of a scanner. -/
structure Mode where
  accepts : Option Nat
  /-- The end of the text is a token here. -/
  endAllowed : Bool
  /-- For each class of characters where to go and whether only a blank was read. -/
  next : Array (Option (Nat × Bool))
deriving Inhabited

structure Scanner where
  classes : Classes
  modes : Array Mode
deriving Inhabited

/-- Scanner states by the automaton states they stand for. -/
structure Subsets where
  numbers : Std.HashMap (List Nat × Bool) Nat
  sets : Array (List Nat × Bool)

def Subsets.number (s : Subsets) (key : List Nat × Bool) : Nat × Subsets :=
  match s.numbers.get? key with
  | some n => (n, s)
  | none => (s.sets.size, ⟨s.numbers.insert key s.sets.size, s.sets.push key⟩)

/-- Works out one scanner state. -/
def workMode (a : Automaton) (set : List Nat × Bool) (subsets : Subsets) : Mode × Subsets := Id.run do
  let (closed, endAllowed) := set
  let done := a.bestCompletion closed
  let blanks := a.inBlanks closed
  let mut next : Array (Option (Nat × Bool)) := Array.replicate a.classes.count none
  let mut subsets := subsets
  for m in a.moves closed do
    let taken := match done with
      | none => true
      | some d => a.prefersMove m d blanks
    if taken then
      let (n, grown) := subsets.number (a.close m.next, endAllowed && m.blank)
      subsets := grown
      for c in [0:a.classes.count] do
        if m.classes.testBit c then next := next.set! c (some (n, m.blank))
  return (⟨done.map Prod.fst, endAllowed, next⟩, subsets)

/-- A scanner that starts with the tokens of `starts[i]` in state `i`'s number of the result. -/
def scannerFor (a : Automaton) (starts : List Nat) : Scanner × List Nat := Id.run do
  let mut subsets : Subsets := ⟨{}, #[]⟩
  let mut entries : Array Nat := #[]
  for tokens in starts do
    let entry := (List.range a.tokens.size).filterMap fun t =>
      if t ≠ 0 && tokens.testBit t then some (a.entry.getD t 0) else none
    let (n, grown) := subsets.number (a.close entry, tokens.testBit 0)
    subsets := grown
    entries := entries.push n
  let mut modes : Array Mode := #[]
  for i in [0:100000] do
    if i ≥ subsets.sets.size then break
    let (mode, grown) := workMode a (subsets.sets.getD i ([], false)) subsets
    subsets := grown
    modes := modes.push mode
  return (⟨a.classes, modes⟩, entries.toList)

/-! ### Sharing a scanner -/

/-- Whether two sets of tokens can be looked for at once without changing what either finds. -/
def canShare (c : Conflicts) (together : Nat → Nat → Bool) (n : Nat) (s t : Nat) : Bool :=
  let fits (extra existing : Nat) : Bool := (List.range n).all fun i =>
    i = 0 || !extra.testBit i || existing.testBit i || (List.range n).all fun j =>
      j = 0 || !existing.testBit j ||
        (!c.conflicts i j && !Conflicts.has c.stopsShort i j &&
          (together i j || (!c.overlaps j i && !c.overlaps i j)))
  fits s t && fits t s

/-- Joins sets of tokens one by one with the first one that can share; gives the joined sets and, for
each given set, the place of the one it went to. -/
def shareSets (c : Conflicts) (together : Nat → Nat → Bool) (n : Nat) (sets : List Nat) :
    Array Nat × List Nat := Id.run do
  let mut joined : Array Nat := #[]
  let mut places : Array Nat := #[]
  for s in sets do
    match joined.findIdx? fun t => s = t || canShare c together n t s with
    | some i =>
      joined := joined.modify i fun t => t ||| s
      places := places.push i
    | none =>
      places := places.push joined.size
      joined := joined.push s
  return (joined, places.toList)

end Concordance.Lexer
