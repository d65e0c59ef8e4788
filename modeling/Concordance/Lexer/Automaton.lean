import Concordance.Grammar.Production

/-!
Tokens as one nondeterministic automaton. Characters are first sorted into classes that no token tells
apart, and a set of classes is a number whose bits are its members.
-/

namespace Concordance.Lexer

open Grammar

/-! ### Classes of characters -/

/-- A partition of the code points into classes: `classes[i]` holds from `starts[i]` up to the next
start. -/
structure Classes where
  starts : Array Nat
  classes : Array Nat
  count : Nat
deriving Inhabited

namespace Classes

/-- The last place in `[low, high)` whose start is at most `code`. -/
def search (starts : Array Nat) (code low high : Nat) : Nat :=
  if h : low + 1 < high then
    let middle := (low + high) / 2
    if starts.getD middle 0 ≤ code then search starts code middle high
    else search starts code low middle
  else low
termination_by high - low

def classOf (c : Classes) (code : Nat) : Nat :=
  c.classes.getD (search c.starts code 0 c.starts.size) 0

/-- The classes of the given starts under `signature`, numbered in order of first appearance. -/
def ofSignatures (starts : List Nat) (signature : Nat → Nat) : Classes := Id.run do
  let mut known : Array Nat := #[]
  let mut classes : Array Nat := #[]
  for s in starts do
    let sig := signature s
    match known.findIdx? (· == sig) with
    | some i => classes := classes.push i
    | none =>
      classes := classes.push known.size
      known := known.push sig
  return ⟨starts.toArray, classes, known.size⟩

/-- The coarsest classes of which every given set is a union. -/
def ofSets (sets : List CharSet) : Classes :=
  let bounds := sets.flatMap fun s => s.ranges.flatMap fun r => [r.1, r.2 + 1]
  let sorted := (0 :: bounds).mergeSort fun a b => a ≤ b
  let starts := (sorted.foldl (fun acc b => match acc with
    | [] => [b]
    | a :: _ => if a = b then acc else b :: acc) []).reverse
  let indexed := sets.zipIdx
  ofSignatures starts fun code =>
    indexed.foldl (fun sig s => if s.1.contains code then sig ||| (1 <<< s.2) else sig) 0

/-- The classes inside a set. -/
def mask (c : Classes) (s : CharSet) : Nat :=
  (List.range c.starts.size).foldl (fun m i =>
    if s.contains (c.starts.getD i 0) then m ||| (1 <<< c.classes.getD i 0) else m) 0

end Classes

/-! ### The automaton -/

inductive State where
  /-- The token is complete. -/
  | accept
  /-- Reads one character of the classes. -/
  | read (classes : Nat) (next : Nat) (blank : Bool) (level : Int)
  | split (first second : Nat)
deriving Inhabited

/-- The states of all tokens; `owner` tells whose a state is and `entry` where a token starts. -/
structure Automaton where
  classes : Classes
  states : Array State
  owner : Array Nat
  entry : Array Nat
  tokens : Array TokenForm
deriving Inhabited

/-- The sets of characters that a rule tells apart. -/
def ruleSets : Rule → List CharSet
  | .text s => s.toList.map CharSet.single
  | .chars s => [s]
  | .blank | .ref _ => []
  | .cat a b | .alt a b => ruleSets a ++ ruleSets b
  | .many1 r | .token r | .immediate r | .binds _ r | .left _ r | .right _ r | .dynamic _ r
  | .field _ r | .shownAs _ r => ruleSets r

/-- Adds the states of one rule that goes on at `next`; gives where the rule starts. -/
def addRule (mask : CharSet → Nat) (level : Int) : Rule → Nat → Array State → Nat × Array State
  | .text s, next, states =>
    s.toList.foldr (fun c (next, states) =>
      (states.size, states.push (.read (mask (CharSet.single c)) next false level))) (next, states)
  | .chars s, next, states => (states.size, states.push (.read (mask s) next false level))
  | .blank, next, states | .ref _, next, states => (next, states)
  | .cat a b, next, states =>
    let (middle, states) := addRule mask level b next states
    addRule mask level a middle states
  | .alt a b, next, states =>
    let (x, states) := addRule mask level a next states
    let (y, states) := addRule mask level b next states
    (states.size, states.push (.split x y))
  | .many1 r, next, states =>
    let again := states.size
    let (x, states) := addRule mask level r again (states.push (.split next next))
    (x, states.set! again (.split x next))
  | .token r, next, states | .immediate r, next, states | .binds _ r, next, states
  | .left _ r, next, states | .right _ r, next, states | .dynamic _ r, next, states
  | .field _ r, next, states | .shownAs _ r, next, states => addRule mask level r next states

namespace Automaton

/-- The automaton of a grammar's tokens. Blanks may come first unless the token is immediate. -/
def ofNumbered (g : Numbered) : Automaton := Id.run do
  let sets := (g.blanks :: g.tokens.toList.flatMap fun t => ruleSets t.body).eraseDups
  let classes := Classes.ofSets sets
  let masks := sets.map fun s => (s, classes.mask s)
  let mask (s : CharSet) : Nat := (masks.lookup s).getD 0
  let mut states : Array State := #[]
  let mut owner : Array Nat := #[]
  let mut entry : Array Nat := #[]
  for i in [0:g.tokens.size] do
    let form := g.tokens[i]!
    let last := states.size
    let (start, grown) := addRule mask form.level form.body last (states.push .accept)
    states := grown
    if form.immediate then
      entry := entry.push start
    else
      let loop := states.size
      states := states.push (.split (loop + 1) start)
      states := states.push (.read (mask g.blanks) loop true 0)
      entry := entry.push loop
    for _ in [owner.size:states.size] do
      owner := owner.push i
  return ⟨classes, states, owner, entry, g.tokens⟩

/-- Puts a number into an ascending list without repetition. -/
def insertSorted (n : Nat) : List Nat → List Nat
  | [] => [n]
  | m :: rest => if n < m then n :: m :: rest else if n = m then m :: rest
    else m :: insertSorted n rest

/-- The reading and accepting states that can be reached from `pending` without reading. -/
def close (a : Automaton) (pending : List Nat) : List Nat := Id.run do
  let mut todo := pending
  let mut out : List Nat := []
  let mut visited : List Nat := []
  for _ in [0:2 * a.states.size + pending.length] do
    match todo with
    | [] => break
    | s :: rest =>
      todo := rest
      match a.states[s]? with
      | some (.split x y) =>
        if !visited.contains s then
          visited := s :: visited
          todo := x :: y :: todo
      | some _ => out := s :: out
      | none => pure ()
  let sorted := out.mergeSort fun a b => a ≤ b
  return (sorted.foldr (fun n acc => match acc with
    | [] => [n]
    | m :: _ => if n = m then acc else n :: acc) [])

/-- One way on from a set of states: on these classes, to these states. -/
structure Move where
  classes : Nat
  next : List Nat
  /-- Only blanks before a token have been read. -/
  blank : Bool
  level : Int
deriving Inhabited

/-- Adds one reading state to the moves, splitting those it overlaps. -/
def addMove : List Move → Nat → Nat → Bool → Int → List Move
  | [], classes, next, blank, level => if classes = 0 then [] else [⟨classes, [next], blank, level⟩]
  | m :: rest, classes, next, blank, level =>
    if classes = 0 then m :: rest else
    let both := m.classes &&& classes
    if both = 0 then m :: addMove rest classes next blank level else
    let joined : Move :=
      ⟨both, insertSorted next m.next, m.blank && blank, max m.level level⟩
    let only := m.classes ^^^ both
    let more := addMove rest (classes ^^^ both) next blank level
    if only = 0 then joined :: more else joined :: { m with classes := only } :: more

/-- The moves from a closed set of states; no class is in two of them. -/
def moves (a : Automaton) (closed : List Nat) : List Move :=
  closed.foldl (fun (ms : List Move) (s : Nat) => match a.states[s]? with
    | some (State.read classes next blank level) => addMove ms classes next blank level
    | _ => ms) []

/-- The tokens complete in a closed set of states, with their levels. -/
def completions (a : Automaton) (closed : List Nat) : List (Nat × Int) :=
  closed.filterMap fun (s : Nat) => match a.states[s]? with
    | some State.accept =>
      let t := a.owner.getD s 0
      some (t, (a.tokens[t]!).level)
    | _ => none

/-- The tokens whose states are in a set, each once. -/
def owners (a : Automaton) (states : List Nat) : List Nat :=
  (states.foldl (fun acc s =>
    let t := a.owner.getD s 0
    if acc.contains t then acc else t :: acc) []).reverse

/-- Blanks before a token can still be read. -/
def inBlanks (a : Automaton) (closed : List Nat) : Bool :=
  closed.any fun s => match a.states[s]? with
    | some (.read _ _ blank _) => blank
    | _ => false

/-- Of two tokens that end at one place the first one counts. -/
def prefersToken (a : Automaton) (first second : Nat × Int) : Bool :=
  if first.2 ≠ second.2 then first.2 > second.2 else
  let w := (a.tokens[first.1]!).weight
  let v := (a.tokens[second.1]!).weight
  if w ≠ v then w > v else first.1 < second.1

/-- Going on beats stopping at the complete token `done`. -/
def prefersMove (a : Automaton) (m : Move) (done : Nat × Int) (inBlanks : Bool) : Bool :=
  if m.level < done.2 then false
  else if m.level = done.2 then
    !(m.blank || (inBlanks && (a.owners m.next).all (· == done.1)))
  else true

/-- The token that counts among those complete in a set of states. -/
def bestCompletion (a : Automaton) (closed : List Nat) : Option (Nat × Int) :=
  (a.completions closed).foldl (fun best c => match best with
    | none => some c
    | some b => if a.prefersToken b c then some b else some c) none

/-- The classes a token can start with, blanks included. -/
def startClasses (a : Automaton) (token : Nat) : Nat :=
  (a.moves (a.close [a.entry.getD token 0])).foldl (fun m move => m ||| move.classes) 0

end Automaton

end Concordance.Lexer
