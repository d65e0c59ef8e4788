import Concordance.Lr.Merge
import Concordance.Lexer.Scanner

/-!
The table that drives a parser: actions and gotos by state, the scanner each state uses, and what every
symbol looks like in a tree.
-/

namespace Concordance.Lr

open Grammar Lexer

structure Table where
  tokens : Array TokenForm
  rules : Array RuleForm
  layouts : Array Layout
  /-- By state and token. -/
  actions : Array (Array (List Action))
  /-- By state and rule; zero where there is none. -/
  gotos : Array (Array Nat)
  /-- The tokens of each state that no other token of the state resembles. -/
  distinct : Array Nat
  scanner : Scanner
  /-- The scanner state for each state. -/
  modes : Array Nat
  keywordMode : Nat
deriving Inhabited

namespace Table

def tokenCount (t : Table) : Nat := t.tokens.size

def actionsAt (t : Table) (state token : Nat) : List Action := (t.actions.getD state #[]).getD token []

def goto (t : Table) (state rule : Nat) : Nat := (t.gotos.getD state #[]).getD rule 0

/-- Where a token leads; zero where it cannot be taken. -/
def afterToken (t : Table) (state token : Nat) : Nat :=
  match (t.actionsAt state token).getLast? with
  | some (.shift s _) => s
  | some .shiftExtra => state
  | _ => 0

/-- The table of a grammar. `bound` limits the number of states. -/
def ofGrammar (description : Description) (bound : Nat) : Table := Id.run do
  let g := description.numbered
  let n := g.tokens.size
  let its := Items.ofNumbered g
  let automaton := Automaton.ofNumbered g
  let all := states g its bound
  let conflicts := Conflicts.ofAutomaton automaton (followingTokens g its)
  let company := companyOf all n
  let words := keywords g conflicts company
  let clash := (Array.range n).map fun i => (List.range n).foldl (fun m j =>
    if i = 0 || j = 0 || (i = 1 && words.testBit j) || (j = 1 && words.testBit i) then m
    else if conflicts.conflicts i j then m ||| (1 <<< j) else m) 0
  let all := withRepair all (repairTokens g conflicts company words)
  let groups := groupStates all n clash
  let small := joinGroups all groups
  let small := largestFirst (dropUnused (passRenaming g small)) n
  let lookedFor := small.toList.map fun s =>
    let keyed := (List.range n).any fun t => s.tokens.testBit t && words.testBit t
    let plain := (List.range n).foldl (fun m t =>
      if s.tokens.testBit t && !words.testBit t then m ||| (1 <<< t) else m) 0
    if keyed then plain ||| 2 else plain
  let together (i j : Nat) : Bool := (company.shared.getD i 0).testBit j
  let (joined, places) := shareSets conflicts together n lookedFor
  let (scanner, entries) := scannerFor automaton (joined.toList ++ [words])
  let entryOf := entries.toArray
  return {
    tokens := g.tokens
    rules := g.rules
    layouts := its.layouts
    actions := small.map State.actions
    gotos := small.map fun s => s.gotos.foldl (fun a (r, t) => a.set! r t) (Array.replicate its.ruleCount 0)
    distinct := small.mapIdx fun k s => (List.range n).foldl (fun m t =>
      if k ≠ 0 && s.tokens.testBit t && (t = 0 || (List.range n).all fun i =>
        i = 0 || !s.tokens.testBit i || !conflicts.overlaps i t) then m ||| (1 <<< t) else m) 0
    scanner
    modes := (places.map fun p => entryOf.getD p 0).toArray
    keywordMode := entryOf.getD joined.size 0 }

end Table

end Concordance.Lr
