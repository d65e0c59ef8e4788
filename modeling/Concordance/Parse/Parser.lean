import Concordance.Parse.Scan
import Concordance.Parse.Stack

/-!
The parser: all readings of a text are followed side by side. One that cannot go on waits; when none
can, the best one is repaired, by putting in a token, by going back to a state that the next token
fits, or by skipping the token. Readings that cost much more than another one are given up.
-/

namespace Concordance.Parse

open Grammar Lr

/-- The greatest number of readings kept. -/
def maxVersions : Nat := 6

/-- By how much that number may be passed in between. -/
def versionSlack : Nat := 4

/-- How deep a repair looks for a state to go back to. -/
def maxDepth : Nat := 16

structure Parser where
  stack : Stack
  finished : Option Tree := none
  accepted : Nat := 0
  /-- The token scanned last, with the place it was scanned at. -/
  recent : Option (Nat × Tree) := none
deriving Inhabited

/-- What stays the same while one text is read. -/
structure Setting where
  table : Table
  input : Input

namespace Setting

def shows (e : Setting) : Label → Bool := Parse.shows e.table

def actionsAt (e : Setting) (state : Nat) : Label → List Action
  | .token t => e.table.actionsAt state t
  | _ => []

def push (e : Setting) (s : Stack) (v : Nat) (t : Option Tree) (state : Nat) : Stack :=
  s.push e.shows v t state

def nodeOver (e : Setting) (place : Nat) (label : Label) (layout : Nat) (children : List Tree) : Tree :=
  Tree.nodeOver e.table e.input place label layout children.toArray

end Setting

/-! ### Comparing versions -/

/-- How a version fares, for comparison. -/
structure Standing where
  cost : Nat
  count : Nat
  dynamic : Int
  inError : Bool

/-- The outcome of comparing two versions. -/
inductive Verdict where
  | takeFirst
  | preferFirst
  | none
  | preferSecond
  | takeSecond
deriving DecidableEq

def standing (s : Stack) (v : Nat) : Standing × Stack :=
  let paused := s.isPaused v
  let cost := s.cost v + if paused then Cost.skippedTree else 0
  let inError := paused || s.state v = 0
  let dynamic := (s.top v).dynamic
  let (count, s) := s.countSinceError v
  (⟨cost, count, dynamic, inError⟩, s)

/-- The dearer version is given up where the difference, weighed by the progress of the cheaper one,
is great. Weights are 32-bit numbers. -/
def farApart (difference count : Nat) : Bool := difference * (1 + count) % 0x100000000 > Cost.apart

def judge (a b : Standing) : Verdict :=
  if !a.inError && b.inError then if a.cost < b.cost then .takeFirst else .preferFirst
  else if a.inError && !b.inError then if b.cost < a.cost then .takeSecond else .preferSecond
  else if a.cost < b.cost then
    if farApart (b.cost - a.cost) a.count then .takeFirst else .preferFirst
  else if b.cost < a.cost then
    if farApart (a.cost - b.cost) b.count then .takeSecond else .preferSecond
  else if a.dynamic > b.dynamic then .preferFirst
  else if b.dynamic > a.dynamic then .preferSecond
  else .none

/-- Whether a version at this cost would lose against another one, or against a finished tree. -/
def betterExists (p : Parser) (v : Nat) (inError : Bool) (cost : Nat) : Bool × Parser := Id.run do
  let beaten := p.finished.any fun t => t.info.cost ≤ cost
  if beaten then return (true, p)
  let place := p.stack.place v
  let dynamic := (p.stack.top v).dynamic
  let (count, stack) := p.stack.countSinceError v
  let mut stack := stack
  let own : Standing := ⟨cost, count, dynamic, inError⟩
  for i in [0:stack.size] do
    if i ≠ v && stack.isActive i && stack.place i ≥ place then
      let (other, stack') := standing stack i
      stack := stack'
      match judge own other with
      | .takeSecond => return (true, { p with stack })
      | .preferSecond => if stack.canMerge i v then return (true, { p with stack })
      | _ => pure ()
  return (false, { p with stack })

/-! ### Reducing -/

/-- Splits off the trees at the end that may stand anywhere. -/
def splitExtras (trees : List Tree) : List Tree × List Tree :=
  let back := trees.reverse
  ((back.dropWhile fun t => t.info.extra).reverse, (back.takeWhile fun t => t.info.extra).reverse)

/-- Replaces the topmost trees of a version by a node. Every way down gives a version of its own unless
it meets another one; the first version that is new is given. -/
def reduce (e : Setting) (s : Stack) (v rule count : Nat) (dynamic : Int) (layout : Nat) :
    Stack × Option Nat := Id.run do
  let before := s.size
  let (s, slices) := s.popCount v count
  let mut s := s
  let mut removed := 0
  let mut i := 0
  for _ in [0:slices.size] do
    if i ≥ slices.size then break
    let slice := slices.getD i default
    let rest := (slices.toList.drop (i + 1)).takeWhile fun n => n.version = slice.version
    i := i + 1 + rest.length
    let w := slice.version - removed
    if w > maxVersions + versionSlack then
      s := s.remove w
      removed := removed + 1
    else
      let place := s.place w
      let build (trees : List Tree) : Tree := e.nodeOver place (.rule rule) layout trees
      let (trees, extras) := splitExtras slice.trees
      let mut node := build trees
      let mut extras := extras
      for other in rest do
        let (trees', extras') := splitExtras other.trees
        if Tree.prefersSecond node (e.nodeOver place (.rule rule) 0 trees') then
          node := build trees'
          extras := extras'
      let next := e.table.goto (s.state w) rule
      let built := node.mapInfo fun i => { i with dynamic := i.dynamic + dynamic }
      s := e.push s w (some built) next
      for x in extras do
        s := e.push s w (some x) next
      for j in [0:w] do
        if j ≠ v then
          let (merged, s') := s.merge e.shows e.input j w
          s := s'
          if merged then
            removed := removed + 1
            break
  return (s, if s.size > before then some before else none)

/-- The reductions among the actions of a state, at one token or at all. -/
def reductionsAt (e : Setting) (state : Nat) (lookahead : Option Nat) :
    List (Nat × Nat × Int × Nat) × Bool := Id.run do
  let mut out : List (Nat × Nat × Int × Nat) := []
  let mut shifts := false
  let tokens := match lookahead with
    | some t => [t]
    | none => (List.range e.table.tokenCount).drop 1
  for t in tokens do
    for a in e.table.actionsAt state t do
      match a with
      | .shift _ inRun => if !inRun then shifts := true
      | .recover => shifts := true
      | .reduce r count dynamic layout =>
        if count > 0 && !out.any fun o => o.1 = r && o.2.1 = count then
          out := out ++ [(r, count, dynamic, layout)]
      | .shiftExtra | .accept => pure ()
  return (out, shifts)

/-- Makes every reduction that some token, or the given one, allows, and the reductions that these
allow. Tells whether the token can then be taken. -/
def reduceAll (e : Setting) (s : Stack) (start : Nat) (lookahead : Option Nat) : Stack × Bool :=
  Id.run do
  let before := s.size
  let mut s := s
  let mut canShift := false
  let mut v := start
  let mut steps := 0
  for _ in [0:100000] do
    let size := s.size
    if v ≥ size then break
    let mut merged := false
    for j in [before:v] do
      let (m, s') := s.merge e.shows e.input j v
      s := s'
      if m then
        merged := true
        break
    if !merged then
      let (reductions, shifts) := reductionsAt e (s.state v) lookahead
      let mut last : Option Nat := none
      for (r, count, dynamic, layout) in reductions do
        let (s', made) := reduce e s v r count dynamic layout
        s := s'
        last := made
      let mut again := false
      if shifts then canShift := true
      else
        match last with
        | some w =>
          if steps < maxVersions then
            s := s.replace w v
            again := true
          else if lookahead.isSome then s := s.remove v
        | none => if lookahead.isSome then s := s.remove v
      if !again then v := if v = start then size else v + 1
    steps := steps + 1
  return (s, canShift)

/-! ### Finishing -/

/-- Ends a version: its trees, the end of the text included, become a finished tree. -/
def accept (e : Setting) (p : Parser) (v : Nat) (lookahead : Tree) : Parser := Id.run do
  let s := e.push p.stack v (some lookahead) 1
  let (s, slices) := s.popAll v
  let mut finished := p.finished
  let mut accepted := p.accepted
  for slice in slices do
    let back := slice.trees.reverse
    let after := (back.takeWhile fun t => t.info.extra).reverse
    match back.dropWhile fun t => t.info.extra with
    | [] => pure ()
    | root :: front =>
      let trees := front.reverse ++ root.children.toList ++ after
      let tree := e.nodeOver root.info.start root.label root.info.layout trees
      accepted := accepted + 1
      finished := match finished with
        | none => some tree
        | some old => if Tree.prefersSecond old tree then some tree else some old
  let s := match slices[0]? with
    | some slice => s.remove slice.version
    | none => s
  return { p with stack := s.halt v, finished, accepted }

/-! ### Repair -/

/-- Goes back to a state `depth` trees down and wraps what lay above in an error. -/
def goBack (e : Setting) (s : Stack) (v depth goal : Nat) : Stack × Bool := Id.run do
  let (s, slices) := s.popCount v depth
  let mut s := s
  let mut previous : Option Nat := none
  for slice in slices do
    let w := slice.version
    if previous ≠ some w then
      if s.state w ≠ goal then s := s.halt w
      else
        let (s', error) := s.popError w
        s := s'
        let inner := match error with
          | some t => t.children.toList
          | none => []
        let (trees, extras) := splitExtras (inner ++ slice.trees)
        if !trees.isEmpty then
          let node := e.nodeOver (s.place w) .error 0 trees
          s := e.push s w (some (node.mapInfo fun i => { i with extra := true })) goal
        for x in extras do
          s := e.push s w (some x) goal
        previous := some w
  return (s, previous.isSome)

/-- Drops the versions from `start` on that are not active. -/
def dropIdle (s : Stack) (start : Nat) : Stack := Id.run do
  let mut s := s
  let mut i := start
  for _ in [start:s.size] do
    if i ≥ s.size then break
    if s.isActive i then i := i + 1 else s := s.remove i
  return s

/-- Goes on with the repair of a version at a token: goes back to a state that the token fits, and also
skips the token unless that is hopeless. -/
def recover (e : Setting) (p : Parser) (v : Nat) (lookahead : Tree) : Parser := Id.run do
  let before := p.stack.size
  let place := p.stack.place v
  let landmarks := ((p.stack.version v).landmarks).getD #[]
  let (sinceError, stack) := p.stack.countSinceError v
  let cost := stack.cost v
  let mut p := { p with stack }
  let mut recovered := false
  if !lookahead.isError then
    for m in landmarks do
      if m.state ≠ 0 && m.place ≠ place then
        let depth := if sinceError > 0 then m.depth + 1 else m.depth
        let redundant := (List.range before).any fun j =>
          p.stack.state j = m.state && p.stack.place j = place
        if !redundant then
          let newCost := cost + m.depth * Cost.skippedTree +
            e.input.bytes m.place place * Cost.skippedChar +
            e.input.breaks m.place place * Cost.skippedLine
          let (worse, p') := betterExists p v false newCost
          p := p'
          if worse then break
          if !(e.actionsAt m.state lookahead.label).isEmpty then
            let (s, done) := goBack e p.stack v depth m.state
            p := { p with stack := s }
            if done then
              recovered := true
              break
  p := { p with stack := dropIdle p.stack before }
  if recovered && p.stack.size > maxVersions then
    return { p with stack := p.stack.halt v }
  if lookahead.label = .token 0 then
    let error := e.nodeOver place .error 0 []
    return accept e { p with stack := e.push p.stack v (some error) 1 } v lookahead
  let i := lookahead.info
  let newCost := cost + Cost.skippedTree + e.input.bytes i.outer i.stop * Cost.skippedChar +
    e.input.breaks i.outer i.stop * Cost.skippedLine
  let (worse, p') := betterExists p v false newCost
  p := p'
  if worse then return { p with stack := p.stack.halt v }
  let extra := match (e.actionsAt 1 lookahead.label).getLast? with
    | some .shiftExtra => true
    | _ => false
  let lookahead := if extra then lookahead.mapInfo fun i => { i with extra := true } else lookahead
  let mut skipped := e.nodeOver place .skipped 0 [lookahead]
  if sinceError > 0 then
    let (s, slices) := p.stack.popCount v 1
    let mut s := s
    match slices[0]? with
    | none => pure ()
    | some slice =>
      if slices.size > 1 then
        s := { s with versions := s.versions.take (slice.version + 1) }
      s := s.replace slice.version v
      skipped := e.nodeOver place .skipped 0 (slice.trees ++ [skipped])
    p := { p with stack := s }
  return { p with stack := e.push p.stack v (some skipped) 0 }

/-- Starts the repair of a version that cannot take a token. -/
def handleError (e : Setting) (p : Parser) (v : Nat) (lookahead : Tree) : Parser := Id.run do
  let before := p.stack.size
  let (s, _) := reduceAll e p.stack v none
  let mut s := s
  let count := s.size
  let place := s.place v
  let mut inserted := false
  let mut w := v
  for _ in [0:count + 1] do
    if w ≥ count then break
    if !inserted then
      let state := s.state w
      for t in [1:e.table.tokenCount] do
        let next := e.table.afterToken state t
        if next ≠ 0 && next ≠ state then
          let reduces := match (e.actionsAt next lookahead.label).head? with
            | some (.reduce ..) => true
            | _ => false
          if reduces then
            let (c, s') := s.copy w
            s := e.push s' c (some (Tree.absent t place)) next
            let ahead := match lookahead.label with
              | .token a => a
              | _ => 0
            let (s'', fits) := reduceAll e s c (if ahead = 0 then none else some ahead)
            s := s''
            if fits then
              inserted := true
              break
    s := e.push s w none 0
    w := if w = v then before else w + 1
  for _ in [before:count] do
    let (_, s') := s.merge e.shows e.input v before
    s := s'
  s := s.noteLandmarks v maxDepth
  return recover e { p with stack := s } v lookahead

/-! ### Going forward -/

/-- The token at the place of a version: the one scanned last if it fits here too. -/
def nextToken (e : Setting) (p : Parser) (state place : Nat) : Tree × Parser :=
  let scanned := fun (_ : Unit) =>
    let t := scan e.table e.input state place
    (t, { p with recent := some (place, t) })
  match p.recent with
  | some (at', t) =>
    if at' ≠ place then scanned () else
    match t.label with
    | .token n =>
      let here := e.table.modes.getD state 0
      let there := e.table.modes.getD t.info.state 0
      let actions := e.table.actionsAt state n
      if !actions.isEmpty && here = there && (n ≠ 1 || (!t.info.keyword && t.info.state = state)) then
        (t, p)
      else if t.info.start = t.info.stop && n ≠ 0 then scanned ()
      else if (e.table.distinct.getD state 0).testBit n then (t, p)
      else scanned ()
    | _ => scanned ()
  | none => scanned ()

/-- The outcome of trying the actions at a token. -/
inductive Tried where
  | done (p : Parser)
  | reduced (p : Parser) (version : Option Nat)
  | stuck (p : Parser)

/-- Tries the actions of a version at a token one after another; taking the token ends the turn. -/
def tryActions (e : Setting) (p : Parser) (v : Nat) (lookahead : Tree) (state : Nat) :
    List Action → Option Nat → Bool → Tried
  | [], last, reducedAny =>
    if last.isSome then .reduced p last else if reducedAny then .reduced p none else .stuck p
  | .shift _ true :: rest, last, reducedAny => tryActions e p v lookahead state rest last reducedAny
  | .shift next false :: _, _, _ =>
    .done { p with stack := e.push p.stack v (some (lookahead.mapInfo fun i => { i with extra := false })) next }
  | .shiftExtra :: _, _, _ =>
    .done { p with stack := e.push p.stack v (some (lookahead.mapInfo fun i => { i with extra := true })) state }
  | .accept :: _, _, _ => .done (accept e p v lookahead)
  | .recover :: _, _, _ => .done (recover e p v lookahead)
  | .reduce r count dynamic layout :: rest, last, _ =>
    let (s, made) := reduce e p.stack v r count dynamic layout
    tryActions e { p with stack := s } v lookahead state rest (made.orElse fun _ => last) true

/-- Lets a version wait with the token it cannot take. -/
def pause (p : Parser) (v : Nat) (lookahead : Tree) : Parser :=
  let count := (p.stack.top v).count
  { p with stack := p.stack.modify v fun h =>
      { h with status := .paused lookahead, countAtError := count } }

/-- Reduces a version until it takes the token, waits, is repaired or has met another version. A
keyword that does not fit is read as the word where that fits. -/
def proceed (e : Setting) (v : Nat) : Nat → Parser → Tree → Nat → List Action → Parser
  | 0, p, _, _, _ => p
  | fuel + 1, p, lookahead, state, actions =>
    match tryActions e p v lookahead state actions none false with
    | .done p => p
    | .reduced p none => { p with stack := p.stack.halt v }
    | .reduced p (some w) =>
      let p := { p with stack := p.stack.replace w v }
      let state := p.stack.state v
      proceed e v fuel p lookahead state (e.actionsAt state lookahead.label)
    | .stuck p =>
      let word := e.table.actionsAt state 1
      if lookahead.info.keyword && lookahead.label ≠ .token 1 && !word.isEmpty then
        proceed e v fuel p (lookahead.mapInfo fun i => { i with label := .token 1 }) state word
      else if state = 0 then recover e p v lookahead
      else pause p v lookahead

/-- A bound on the reductions between two tokens. -/
def maxReductions : Nat := 100000000

/-- Moves a version on by one token. -/
def advance (e : Setting) (p : Parser) (v : Nat) : Parser :=
  let state := p.stack.state v
  let place := p.stack.place v
  let (lookahead, p) := nextToken e p state place
  proceed e v maxReductions p lookahead state (e.actionsAt state lookahead.label)

/-- Puts the versions in order, drops those that others beat, and repairs the best one if none can go
on. Gives the least cost of a version. -/
def condense (e : Setting) (p : Parser) : Parser × Option Nat := Id.run do
  let mut s := p.stack
  let mut least : Option Nat := none
  let mut i := 0
  for _ in [0:1000] do
    if i ≥ s.size then break
    if s.isHalted i then s := s.remove i
    else
      let (own, s') := standing s i
      s := s'
      if !own.inError && least.all (own.cost < ·) then least := some own.cost
      let mut j := 0
      let mut gone := false
      for _ in [0:i] do
        if gone || j ≥ i then break
        let (other, s') := standing s j
        s := s'
        match judge other own with
        | .takeFirst =>
          s := s.remove i
          gone := true
        | .preferFirst | .none =>
          let (m, s') := s.merge e.shows e.input j i
          s := s'
          if m then gone := true else j := j + 1
        | .preferSecond =>
          let (m, s') := s.merge e.shows e.input j i
          s := s'
          if m then gone := true
          else
            s := s.swap i j
            j := j + 1
        | .takeSecond =>
          s := s.remove j
          i := i - 1
      if !gone then i := i + 1
  s := { s with versions := s.versions.take maxVersions }
  let mut p := { p with stack := s }
  let mut running := false
  let mut k := 0
  let mut bound := p.stack.size
  for _ in [0:p.stack.size] do
    if k ≥ bound then break
    match (p.stack.version k).status with
    | .paused lookahead =>
      if !running && p.accepted < maxVersions then
        least := some (p.stack.cost k)
        p := { p with stack := p.stack.modify k fun h => { h with status := .active } }
        p := handleError e p k lookahead
        running := true
        k := k + 1
      else
        p := { p with stack := p.stack.remove k }
        bound := bound - 1
    | _ =>
      running := true
      k := k + 1
  return (p, least)

/-- One round: every version moves past the place reached so far. -/
def round (e : Setting) (p : Parser) (reached : Nat) : Parser × Nat := Id.run do
  let mut p := p
  let mut reached := reached
  let mut v := 0
  for _ in [0:1000] do
    if v ≥ p.stack.size then break
    for _ in [0:100000000] do
      if !p.stack.isActive v then break
      p := advance e p v
      let place := p.stack.place v
      if place > reached || (v > 0 && place = reached) then
        reached := place
        break
    v := v + 1
  return (p, reached)

/-- Reads a text. There is no tree only if the bound on the rounds is passed. -/
def parse (table : Table) (input : Input) : Option Tree := Id.run do
  let e : Setting := ⟨table, input⟩
  let mut p : Parser := { stack := Stack.start }
  let mut reached := 0
  for _ in [0:1000 * (input.length + 10)] do
    if p.stack.size = 0 then break
    let (p', reached') := round e p reached
    let (p'', least) := condense e p'
    p := p''
    reached := reached'
    match p.finished with
    | some t => if least.all (t.info.cost < ·) then return some t
    | none => pure ()
  return p.finished

end Concordance.Parse
