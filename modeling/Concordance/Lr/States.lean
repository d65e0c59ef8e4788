import Concordance.Lr.Item

/-!
The states of a parser: sets of items, each with the tokens that may follow it. A state is known by the
items it was entered with; the items that these bring along are found when the state is worked out.
-/

namespace Concordance.Lr

open Grammar

/-- What a parser may do in a state at a token. -/
inductive Action where
  /-- Takes the token and goes to a state. `inRun` marks the choice to extend a run by a token where
  the run could also be closed; only repair may use it. -/
  | shift (state : Nat) (inRun : Bool)
  /-- Takes a token that may stand anywhere and stays. -/
  | shiftExtra
  /-- Replaces the last `count` nodes by one node of the rule. -/
  | reduce (rule : Nat) (count : Nat) (dynamic : Int) (layout : Nat)
  | accept
  /-- Goes on with the repair of a text. -/
  | recover
deriving DecidableEq, Repr, Inhabited

structure State where
  /-- The same for states that were entered with the same items, whatever may follow these. -/
  core : Nat
  /-- The tokens at which there is an action. -/
  tokens : Nat
  actions : Array (List Action)
  /-- The state after each rule. -/
  gotos : List (Nat × Nat)
deriving Inhabited

/-! ### Bringing along -/

/-- What follows the items of a rule that another rule brings along. -/
structure Brought where
  rule : Nat
  /-- Tokens that follow in any case. -/
  tokens : Nat
  /-- Whatever follows the bringing rule follows too. -/
  passes : Bool
deriving Inhabited

/-- The rules that `rule` brings along, itself first. -/
def broughtBy (its : Items) (rule : Nat) : List Brought := Id.run do
  let mut tokens : Array Nat := Array.replicate its.ruleCount 0
  let mut passes : Array Bool := Array.replicate its.ruleCount false
  let mut todo : List Brought := [⟨rule, 0, true⟩]
  for _ in [0:1000000] do
    match todo with
    | [] => break
    | b :: rest =>
      todo := rest
      let old := tokens.getD b.rule 0
      let new := old ||| b.tokens
      let passed := passes.getD b.rule false
      if new ≠ old || (b.passes && !passed) then
        tokens := tokens.set! b.rule new
        passes := passes.set! b.rule (passed || b.passes)
        for i in its.initial.getD b.rule [] do
          let item := its.items[i]!
          match item.next with
          | some (.rule r) =>
            match item.afterNext with
            | none => todo := ⟨r, new, passed || b.passes⟩ :: todo
            | some s => todo := ⟨r, firstOf its.firstOfRule s, false⟩ :: todo
          | _ => pure ()
  return (List.range its.ruleCount).filterMap fun r =>
    let t := tokens.getD r 0
    let p := passes.getD r false
    if t ≠ 0 || p then some ⟨r, t, p⟩ else none

/-! ### Conflicts -/

/-- Levels compare as numbers, and no level as zero. -/
def comparePrec (a b : Option Int) : Ordering := compare (a.getD 0) (b.getD 0)

/-- The reductions possible at one token, and the marks of the items they come from. -/
structure Reductions where
  actions : List Action := []
  prec : Option Int := none
  left : Bool := false
  right : Bool := false
  neither : Bool := false
deriving Inhabited

namespace Reductions

def mark (r : Reductions) (item : Item) : Reductions :=
  let r := { r with prec := item.prec }
  match item.assoc with
  | some .left => { r with left := true }
  | some .right => { r with right := true }
  | none => { r with neither := true }

/-- Adds a reduction unless one of a higher level is there; it replaces those of lower levels. -/
def add (r : Reductions) (item : Item) (action : Action) : Reductions :=
  if r.actions.isEmpty then { r.mark item with actions := [action] } else
  match comparePrec item.prec r.prec with
  | .gt => { (({} : Reductions).mark item) with actions := [action] }
  | .eq => { r.mark item with actions := r.actions ++ [action] }
  | .lt => r

end Reductions

/-- The items of a state with the tokens that may follow them, those it was entered with. -/
abbrev Kernel := List (Nat × Nat)

/-- The actions at a token where both a shift and reductions are possible. Reductions that only close a
run of a repetition leave the shift to repair; otherwise the higher level wins, then associativity, and
what stays open is kept. -/
def settle (g : Numbered) (its : Items) (kernel : Kernel) (token : Nat) (reductions : Reductions)
    (target : Nat) : List Action :=
  let waiting : Kernel := kernel.filter fun k =>
    let item := its.items[k.1]!
    item.dot > 0 && match item.next with
      | some s => (firstOf its.firstOfRule s).testBit token
      | none => false
  let done : Kernel := kernel.filter fun k =>
    (its.items[k.1]!).next.isNone && k.2.testBit token
  let heads : List Nat := (waiting ++ done).filterMap fun k => (its.items[k.1]!).head
  let sameRun := match heads with
    | [] => false
    | h :: rest => (g.rules[h]!).visibility = Visibility.run && rest.all (· == h)
  if sameRun then reductions.actions ++ [.shift target true] else
  let shift := Action.shift target false
  let orders := waiting.map fun k => comparePrec (its.items[k.1]!).prec reductions.prec
  let less := orders.contains .lt
  let more := orders.contains .gt
  if more && !less then [shift]
  else if less && !more then reductions.actions
  else if less && more then reductions.actions ++ [shift]
  else if reductions.left && !reductions.neither && !reductions.right then reductions.actions
  else if reductions.right && !reductions.neither && !reductions.left then [shift]
  else reductions.actions ++ [shift]

/-! ### The states -/

/-- Sorts a kernel and joins its repeated items. -/
def Kernel.normal (k : Kernel) : Kernel :=
  (k.mergeSort fun a b => a.1 ≤ b.1).foldr (fun x acc => match acc with
    | y :: rest => if x.1 = y.1 then (x.1, x.2 ||| y.2) :: rest else x :: acc
    | [] => [x]) []

def Kernel.hashKey (k : Kernel) : UInt64 :=
  k.foldl (fun h x => mixHash h (mixHash (hash x.1) (hash (x.2 % 2305843009213693951)))) 7

/-- A kernel as a key. -/
structure Key where
  kernel : Kernel
deriving BEq

instance : Hashable Key := ⟨fun k => k.kernel.hashKey⟩

def bits (count : Nat) (set : Nat) : List Nat := (List.range count).filter set.testBit

/-- What a state does, told from the items it was entered with. -/
structure Worked where
  actions : Array Reductions
  /-- What each token and each rule leads to. -/
  tokenTargets : List (Nat × Kernel)
  ruleTargets : List (Nat × Kernel)
  kernel : Kernel

/-- Works out one state. -/
def work (g : Numbered) (its : Items) (brought : Array (List Brought)) (kernel : Kernel) : Worked :=
  Id.run do
  let mut after : Array Nat := Array.replicate its.ruleCount 0
  for (i, follow) in kernel do
    let item := its.items[i]!
    match item.next with
    | some (.rule r) =>
      let rest := match item.afterNext with
        | some s => firstOf its.firstOfRule s
        | none => follow
      for b in brought.getD r [] do
        after := after.modify b.rule fun m => if b.passes then m ||| b.tokens ||| rest else m ||| b.tokens
    | _ => pure ()
  let mut tokenTargets : Array Kernel := Array.replicate its.tokenCount []
  let mut ruleTargets : Array Kernel := Array.replicate its.ruleCount []
  let mut actions : Array Reductions := Array.replicate its.tokenCount {}
  let mut all : Array (Nat × Nat) := #[]
  for r in [0:its.ruleCount] do
    let follow := after.getD r 0
    if follow ≠ 0 then
      for i in its.initial.getD r [] do
        all := all.push (i, follow)
  for k in kernel do
    all := all.push k
  for (i, follow) in all do
    let item := its.items[i]!
    match item.next with
    | some (.token t) => tokenTargets := tokenTargets.modify t fun k => (item.advanced, follow) :: k
    | some (.rule r) => ruleTargets := ruleTargets.modify r fun k => (item.advanced, follow) :: k
    | none =>
      let action := match item.head with
        | none => Action.accept
        | some h => .reduce h item.dot item.dynamic item.layout
      for t in [0:its.tokenCount] do
        if follow.testBit t then
          actions := actions.modify t fun r => r.add item action
  return {
    actions
    tokenTargets := g.order.filterMap fun t => match tokenTargets.getD t [] with
      | [] => none
      | k => some (t, k.normal)
    ruleTargets := (List.range its.ruleCount).filterMap fun r => match ruleTargets.getD r [] with
      | [] => none
      | k => some (r, k.normal)
    kernel }

/-- State numbers by kernel and core numbers by items, with the kernels still to be worked out. -/
structure Registry where
  numbers : Std.HashMap Key Nat
  cores : Std.HashMap (List Nat) Nat
  kernels : Array Kernel
  coreOf : Array Nat

/-- The number of the state entered with `k`, a new one if there is none. -/
def Registry.number (r : Registry) (k : Kernel) : Nat × Registry :=
  match r.numbers.get? ⟨k⟩ with
  | some n => (n, r)
  | none =>
    let n := r.kernels.size
    let items := k.map Prod.fst
    let (core, cores) := match r.cores.get? items with
      | some c => (c, r.cores)
      | none => (r.cores.size, r.cores.insert items r.cores.size)
    (n, { numbers := r.numbers.insert ⟨k⟩ n, cores, kernels := r.kernels.push k
          coreOf := r.coreOf.push core })

def Registry.numberAll (r : Registry) (targets : List (Nat × Kernel)) : List (Nat × Nat) × Registry :=
  let (out, r) := targets.foldl (fun (out, r) (s, k) =>
    let (n, r) := Registry.number r k
    ((s, n) :: out, r)) (([] : List (Nat × Nat)), r)
  (out.reverse, r)

/-- All states of a grammar. State 0 is for repair and has no items, state 1 is the start. -/
def states (g : Numbered) (its : Items) (bound : Nat) : Array State := Id.run do
  let brought := (Array.range its.ruleCount).map (broughtBy its)
  let mut registry : Registry := ⟨{}, {}, #[], #[]⟩
  registry := (registry.number []).2
  registry := (registry.number [(its.start, 1)]).2
  let mut out : Array State := #[]
  for i in [0:bound] do
    if i ≥ registry.kernels.size then break
    let kernel := registry.kernels.getD i []
    let worked := work g its brought kernel
    let (shifts, registry') := registry.numberAll worked.tokenTargets
    let (gotos, registry'') := registry'.numberAll worked.ruleTargets
    registry := registry''
    let mut actions : Array (List Action) := worked.actions.map Reductions.actions
    for (t, target) in shifts do
      let r := worked.actions[t]!
      actions := actions.set! t
        (if r.actions.isEmpty then [.shift target false] else settle g its kernel t r target)
    for t in g.extras do
      if (actions.getD t []).isEmpty then actions := actions.set! t [.shiftExtra]
    let tokens := (List.range its.tokenCount).foldl (fun m t =>
      if (actions.getD t []).isEmpty then m else m ||| (1 <<< t)) 0
    out := out.push ⟨registry.coreOf.getD i 0, tokens, actions, gotos⟩
  return out

end Concordance.Lr
