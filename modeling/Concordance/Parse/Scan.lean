import Concordance.Parse.Tree

/-!
Reading one token. Where no token of the state fits, all tokens are looked for, and where none of these
fits either, characters are skipped up to the next place where one does.
-/

namespace Concordance.Parse

open Lexer Lr

/-- What a scanner found: the token and its end if there is one, the start of the token, and the place
where the scanner stopped reading. -/
structure Found where
  token : Option (Nat × Nat)
  start : Nat
  stop : Nat

/-- Runs a scanner from a place. -/
def run (scanner : Scanner) (input : Input) (mode place : Nat) : Found := Id.run do
  -- a mark of byte order before the text is no part of it
  let first := if place = 0 && input.marked then 1 else place
  let mut found : Option (Nat × Nat) := none
  let mut start := first
  let mut here := first
  let mut mode := mode
  for _ in [first:input.length + 1] do
    let m := scanner.modes.getD mode default
    match m.accepts with
    | some t => found := some (t, here)
    | none => pure ()
    if here ≥ input.length then
      if m.endAllowed then found := some (0, here)
      break
    match m.next.getD (input.classes.getD here 0) none with
    | none => break
    | some (n, blank) =>
      here := here + 1
      if blank then start := here
      mode := n
  return ⟨found, start, here⟩

/-- Skips characters from `place` until a token of the repair state is found or the text ends. Gives
the end of the skipped text. -/
def skipTo (scanner : Scanner) (input : Input) (mode : Nat) (start place : Nat) : Nat := Id.run do
  let mut stop := start
  let mut here := place
  for _ in [0:2 * input.length + 2] do
    if here = stop then
      if here ≥ input.length then return stop
      here := here + 1
    stop := here
    let f := run scanner input mode here
    if f.token.isSome then return stop
    here := f.stop
  return stop

/-- The token at a place in a state. -/
def scan (t : Table) (input : Input) (state place : Nat) : Tree :=
  let read (f : Found) (token stop : Nat) : Tree :=
    if token = 1 then
      let k := run t.scanner input t.keywordMode f.start
      match k.token with
      | some (word, wordStop) =>
        if wordStop = stop && !(t.actionsAt state word).isEmpty then
          Tree.leaf (.token word) place f.start stop state true
        else Tree.leaf (.token 1) place f.start stop state true
      | none => Tree.leaf (.token 1) place f.start stop state false
    else Tree.leaf (.token token) place f.start stop state false
  let f := run t.scanner input (t.modes.getD state 0) place
  match f.token with
  | some (token, stop) => read f token stop
  | none =>
    let all := t.modes.getD 0 0
    let g := run t.scanner input all place
    match g.token with
    | some (token, stop) => read g token stop
    | none => Tree.leaf .error place g.start (skipTo t.scanner input all g.start g.stop) state false

end Concordance.Parse
