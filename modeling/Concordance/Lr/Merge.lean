import Concordance.Lr.States
import Concordance.Lexer.Conflict

/-!
Making a table small. States entered with the same items are joined where no action and no token of
one gets in the way of the other, and states that only rename the node on top are passed over.
-/

namespace Concordance.Lr

open Grammar Lexer

/-! ### What is known about tokens across states -/

/-- Which tokens occur together in a state. Row `t` is the set of tokens that share a state with `t`. -/
structure Company where
  shared : Array Nat
  /-- The same for the states in which the word has no action. -/
  sharedWithoutWord : Array Nat

def companyOf (states : Array State) (tokenCount : Nat) : Company := Id.run do
  let mut shared : Array Nat := Array.replicate tokenCount 0
  let mut without : Array Nat := Array.replicate tokenCount 0
  for s in states do
    let word := s.tokens.testBit 1
    for t in [0:tokenCount] do
      if s.tokens.testBit t then
        shared := shared.modify t fun m => m ||| s.tokens
        if !word then without := without.modify t fun m => m ||| s.tokens
  return ⟨shared, without⟩

/-- The tokens following each token somewhere. -/
def followingTokens (g : Numbered) (its : Items) : Array Nat := Id.run do
  let mut out : Array Nat := Array.replicate its.tokenCount 0
  for r in g.rules do
    for p in r.productions do
      for (s, t) in p.steps.zip p.steps.tail do
        let ends := firstOf its.lastOfRule s.sym
        let begins := firstOf its.firstOfRule t.sym
        for i in [0:its.tokenCount] do
          if ends.testBit i then out := out.modify i fun m => m ||| begins
  let all := (List.range its.tokenCount).foldl (fun m t => m ||| (1 <<< t)) 0
  for e in g.extras do
    out := out.map fun m => m ||| (1 <<< e)
  for e in g.extras do
    out := out.set! e all
  return out

/-- Letters as they may stand in keywords. -/
def isLetter (c : Char) : Bool := c.isAlpha || c == '_'

/-- The tokens that are words of the language: they match a text that the word token matches too, no
other keyword does, and putting the word in their place brings no new confusion. -/
def keywords (g : Numbered) (c : Conflicts) (company : Company) : Nat := Id.run do
  let n := g.tokens.size
  let spelled (t : Nat) : Bool := match (g.tokens[t]!).body with
    | .text s => match s.toList with
      | [] => false
      | first :: _ => isLetter first
    | _ => false
  let candidates := (List.range n).filter fun t =>
    t > 1 && spelled t && Conflicts.has c.sameText t 1 && !Conflicts.has c.otherText t 1
  let unshadowed := candidates.filter fun t =>
    candidates.all fun u => u = t || !Conflicts.has c.sameText u t
  let chosen := unshadowed.filter fun t => (List.range n).all fun u =>
    u = 0 || candidates.contains u || !(company.sharedWithoutWord.getD t 0).testBit u ||
      c.sameTowards t 1 u
  return chosen.foldl (fun m t => m ||| (1 <<< t)) 0

/-! ### The state for repair -/

/-- The tokens looked for during repair: all but those that could be read in place of a token that
nothing else resembles. -/
def repairTokens (g : Numbered) (c : Conflicts) (company : Company) (keywords : Nat) : Nat := Id.run do
  let n := g.tokens.size
  let together (i j : Nat) : Bool := (company.shared.getD i 0).testBit j
  let clear := (List.range n).filter fun i =>
    i ≠ 0 && (List.range n).all fun j => j = 0 || j = i || together i j || !c.differsInLength i j
  let kept := (List.range n).filter fun i =>
    i = 0 || i = 1 || keywords.testBit i || clear.contains i ||
      clear.all fun t => together i t || !c.conflicts i t
  return kept.foldl (fun m t => m ||| (1 <<< t)) 0

def withRepair (states : Array State) (tokens : Nat) : Array State :=
  states.modify 0 fun s =>
    { s with
      tokens := s.tokens ||| tokens
      actions := s.actions.mapIdx fun t a =>
        if a.isEmpty && tokens.testBit t then [Action.recover] else a }

/-! ### Joining states -/

/-- Same actions, where shifts may lead to different states of one group. -/
def sameActions (group : Array Nat) : List Action → List Action → Bool
  | [], [] => true
  | .shift s inRun :: as, .shift t inRun' :: bs =>
    group.getD s 0 == group.getD t 0 && inRun == inRun' && sameActions group as bs
  | a :: as, b :: bs => a == b && sameActions group as bs
  | _, _ => false

/-- A state as two lists by ascending symbol: its actions, and where its symbols lead. -/
structure Row where
  tokens : Nat
  actions : List (Nat × List Action)
  targets : List (Nat × Nat)
deriving Inhabited

def shiftTarget? (actions : List Action) : Option Nat := match actions.getLast? with
  | some (.shift s _) => some s
  | _ => none

def State.row (tokenCount : Nat) (s : State) : Row :=
  let actions := (bits tokenCount s.tokens).map fun t => (t, s.actions.getD t [])
  let shifts := actions.filterMap fun (t, as) => (shiftTarget? as).map fun target => (t, target)
  ⟨s.tokens, actions, shifts ++ s.gotos.map fun (r, target) => (tokenCount + r, target)⟩

/-- Whether a list of actions holds a token that must not join `tokens`. -/
def intrudes (clash : Array Nat) (tokens : Nat) (actions : List (Nat × List Action)) : Bool :=
  actions.any fun (t, _) => !tokens.testBit t && clash.getD t 0 &&& tokens != 0

/-- Whether two ascending lists agree wherever both have a symbol. -/
def agree {α : Type} (same : α → α → Bool) : List (Nat × α) → List (Nat × α) → Bool
  | [], _ => true
  | _ :: _, [] => true
  | (s, a) :: as, (t, b) :: bs =>
    if s < t then agree same as ((t, b) :: bs)
    else if t < s then agree same ((s, a) :: as) bs
    else same a b && agree same as bs
termination_by xs ys => xs.length + ys.length

/-- Whether two states cannot be joined. `clash` gives for each token those it must not join. -/
def statesClash (clash : Array Nat) (group : Array Nat) (a b : Row) : Bool :=
  !agree (sameActions group) a.actions b.actions || intrudes clash b.tokens a.actions
    || intrudes clash a.tokens b.actions

/-- Whether two states lead to different groups on some symbol that both have. -/
def targetsDiffer (group : Array Nat) (a b : Row) : Bool :=
  !agree (fun s t => group.getD s 0 == group.getD t 0) a.targets b.targets

/-- States in groups. -/
structure Groups where
  members : Array (List Nat)
  groupOf : Array Nat

/-- Goes through a group and takes out each state that is apart from one that stays before it. -/
def takeApart (apart : Nat → Nat → Bool) : List Nat → Nat → List Nat × List Nat
  | members, 0 => (members, [])
  | [], _ => ([], [])
  | m :: rest, fuel + 1 =>
    let out := rest.filter fun r => apart m r
    let stay := rest.filter fun r => !apart m r
    let (kept, more) := takeApart apart stay fuel
    (m :: kept, out ++ more)

/-- Splits every group into those that stay and one new group of those taken out. -/
def Groups.split (gs : Groups) (rows : Array Row) (apart : Array Nat → Row → Row → Bool) :
    Groups × Bool := Id.run do
  let mut members := gs.members
  let mut groupOf := gs.groupOf
  let mut changed := false
  for i in [0:2 * rows.size + 1] do
    if i ≥ members.size then break
    let ms := members.getD i []
    let current := groupOf
    let (kept, out) := takeApart (fun a b => apart current rows[a]! rows[b]!) ms ms.length
    if !out.isEmpty then
      changed := true
      for s in out do
        groupOf := groupOf.set! s members.size
      members := (members.set! i kept).push out
  return (⟨members, groupOf⟩, changed)

/-- The groups of states that become one state each. -/
def groupStates (states : Array State) (tokenCount : Nat) (clash : Array Nat) : Groups := Id.run do
  let cores := states.foldl (fun n s => max n (s.core + 1)) 0
  let mut members : Array (List Nat) := Array.replicate cores []
  for i in [0:states.size] do
    let j := states.size - 1 - i
    members := members.modify (states[j]!).core fun l => j :: l
  let start : Groups := ⟨members, states.map State.core⟩
  let rows := states.map (State.row tokenCount)
  let mut groups := (start.split rows (statesClash clash)).1
  for _ in [0:states.size] do
    let (next, changed) := groups.split rows targetsDiffer
    groups := next
    if !changed then break
  return groups

def retarget (f : Nat → Nat) (s : State) : State :=
  { s with
    actions := s.actions.map fun as => as.map fun a => match a with
      | .shift t inRun => .shift (f t) inRun
      | a => a
    gotos := s.gotos.map fun (r, t) => (r, f t) }

/-- One state with the actions of both. -/
def State.join (a b : State) : State :=
  { core := a.core
    tokens := a.tokens ||| b.tokens
    actions := a.actions.mapIdx fun t as => if as.isEmpty then b.actions.getD t [] else as
    gotos := a.gotos ++ b.gotos.filter fun (r, _) => (a.gotos.lookup r).isNone }

def joinGroups (states : Array State) (groups : Groups) : Array State :=
  groups.members.map fun ms =>
    let joined := match ms with
      | [] => default
      | m :: rest => rest.foldl (fun s r => s.join states[r]!) states[m]!
    retarget (groups.groupOf.getD · 0) joined

/-! ### Passing over states that only rename -/

/-- The rule under which a state only renames the node on top, whatever token follows. -/
def renamesTo? (g : Numbered) (shown : List Nat) (s : State) : Option Nat := Id.run do
  let mut rule : Option Nat := none
  for as in s.actions do
    for a in as do
      match a with
      | .shiftExtra => pure ()
      | .reduce r 1 0 0 =>
        let form := g.rules[r]!
        if form.shownAs.isSome || g.supertypes.contains r || shown.contains r
          || form.visibility = .named || (rule.isSome && rule ≠ some r) then return none
        rule := some r
      | _ => return none
  return rule

/-- The state reached from `s` when `t` only renames, and so on. -/
def passOver (renames : Array (Option Nat)) (gotos : List (Nat × Nat)) : Nat → Nat → Nat
  | 0, t => t
  | fuel + 1, t => match renames.getD t none with
    | some r => match gotos.lookup r with
      | some u => passOver renames gotos fuel u
      | none => t
    | none => t

def passRenaming (g : Numbered) (states : Array State) : Array State :=
  let shown := g.rules.toList.flatMap fun r => r.productions.flatMap fun p =>
    p.steps.filterMap fun s => match s.shownAs, s.sym with
      | some _, .rule i => some i
      | _, _ => none
  let renames := states.map (renamesTo? g shown)
  states.map fun s => retarget (passOver renames s.gotos 64) s

/-- Drops the states that no other state leads to. -/
def dropUnused (states : Array State) : Array State := Id.run do
  let mut used : Array Bool := Array.replicate states.size false
  used := (used.set! 0 true).set! 1 true
  for s in states do
    for as in s.actions do
      for a in as do
        match a with
        | .shift t _ => used := used.set! t true
        | _ => pure ()
    for (_, t) in s.gotos do
      used := used.set! t true
  let mut number : Array Nat := #[]
  let mut next := 0
  for u in used do
    number := number.push next
    if u then next := next + 1
  let kept := (states.zip used).filterMap fun (s, u) => if u then some s else none
  let numbers := number
  return kept.map (retarget (numbers.getD · 0))

/-- Puts the states with many symbols first, after the first two. -/
def largestFirst (states : Array State) (tokenCount : Nat) : Array State := Id.run do
  let weight (s : State) : Nat :=
    ((List.range tokenCount).countP fun t => s.tokens.testBit t) + s.gotos.length
  let weights := states.map weight
  let rest := (List.range states.size).drop 2
  let sorted := 0 :: 1 :: rest.mergeSort fun i j => weights.getD i 0 ≥ weights.getD j 0
  let mut number : Array Nat := Array.replicate states.size 0
  for (old, new) in sorted.zipIdx do
    number := number.set! old new
  let numbers := number
  return (sorted.map fun i => retarget (numbers.getD · 0) states[i]!).toArray

end Concordance.Lr
