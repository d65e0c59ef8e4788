import Concordance.Grammar.Production

/-!
Items: a production and how far it has been read. Two items with the same head, the same marks and the
same symbols still to come are one item, whatever the symbols already read were, unless a role of a
hidden child depends on them. Items are numbered in the order in which a state lists them.
-/

namespace Concordance.Lr

open Grammar

/-- What a reduction records about the children of the new node. -/
structure Layout where
  /-- The names children show under, up to the last one that has one. -/
  names : List (Option String)
  /-- The roles of children, by place. -/
  roles : List (Nat × String)
  /-- Places of hidden children that pass their own roles on. -/
  inherited : List (Nat × String)
deriving DecidableEq, Repr, Inhabited

def Layout.plain : Layout := ⟨[], [], []⟩

/-- What an item tells the table builder. -/
structure Item where
  /-- The rule it belongs to; `none` for the start of the text. -/
  head : Option Nat
  /-- The symbol to be read next. -/
  next : Option Sym
  /-- The item after that symbol. -/
  advanced : Nat
  /-- The symbol after the next one. -/
  afterNext : Option Sym
  /-- How many symbols have been read. -/
  dot : Nat
  length : Nat
  dynamic : Int
  /-- The marks of the symbol read last. -/
  prec : Option Int
  assoc : Option Assoc
  layout : Nat
deriving Inhabited

/-- The items of a grammar, and what is known of its symbols. -/
structure Items where
  items : Array Item
  /-- The items of each rule with nothing read. -/
  initial : Array (List Nat)
  start : Nat
  layouts : Array Layout
  tokenCount : Nat
  ruleCount : Nat
  /-- The tokens that can begin and end a rule. -/
  firstOfRule : Array Nat
  lastOfRule : Array Nat
deriving Inhabited

/-- The tokens that can stand at one end of each rule; `ends` picks the symbol at that end. -/
def endTokens (g : Numbered) (ends : Production → Option Sym) : Array Nat := Id.run do
  let edges := g.rules.map fun r => (r.productions.filterMap ends).eraseDups
  let mut sets : Array Nat := Array.replicate g.rules.size 0
  for _ in [0:g.rules.size + 1] do
    let mut changed := false
    for i in [0:g.rules.size] do
      let old := sets.getD i 0
      let new := (edges.getD i []).foldl (fun m s => match s with
        | .token t => m ||| (1 <<< t)
        | .rule r => m ||| sets.getD r 0) old
      if new ≠ old then
        sets := sets.set! i new
        changed := true
    if !changed then break
  return sets

def firstOf (first : Array Nat) : Sym → Nat
  | .token t => 1 <<< t
  | .rule r => first.getD r 0

/-- Whether a rule shows no node of its own. -/
def isHidden (g : Numbered) (s : Sym) : Bool := match s with
  | .token _ => false
  | .rule r => match (g.rules[r]!).visibility with
    | .hidden | .run => true
    | .named | .anonymous => false

/-- The roles that each rule's own children have, hidden rules' children included. -/
def rolesOfRules (g : Numbered) : Array (List String) := Id.run do
  let merge (a b : List String) : List String := (a ++ b).eraseDups
  let mut roles : Array (List String) := Array.replicate g.rules.size []
  for _ in [0:g.rules.size + 1] do
    let mut changed := false
    for i in [0:g.rules.size] do
      let old := roles.getD i []
      let new := (g.rules[i]!).productions.foldl (fun acc p => p.steps.foldl (fun acc s =>
        let acc := merge acc s.role.toList
        match s.sym with
        | .rule r =>
          if isHidden g s.sym && !g.supertypes.contains r then merge acc (roles.getD r []) else acc
        | .token _ => acc) acc) old
      if new.length ≠ old.length then
        roles := roles.set! i new
        changed := true
    if !changed then break
  return roles.map fun l => l.mergeSort fun a b => a ≤ b

def Layout.ofProduction (g : Numbered) (roles : Array (List String)) (p : Production) : Layout :=
  let trim (names : List (Option String)) : List (Option String) :=
    (names.reverse.dropWhile Option.isNone).reverse
  { names := trim (p.steps.map Step.shownAs)
    roles := p.steps.zipIdx.filterMap fun (s, i) => s.role.map fun r => (i, r)
    inherited := p.steps.zipIdx.flatMap fun (s, i) => match s.sym with
      | .rule r => if isHidden g s.sym then (roles.getD r []).map fun role => (i, role) else []
      | .token _ => [] }

/-! ### The order of items -/

/-- Numbers that stand for a step where items are compared. -/
structure Coding where
  place : Sym → Nat
  names : List String

namespace Coding

def ofName (c : Coding) : Option String → Int
  | none => 0
  | some a => 1 + (c.names.idxOf a : Nat)

def ofPrec : Option Int → Int
  | none => -1000000
  | some p => p

def ofAssoc : Option Assoc → Int
  | none => 0
  | some .left => 1
  | some .right => 2

def toCome (c : Coding) (s : Step) : List Int :=
  [c.place s.sym, ofPrec s.prec, ofAssoc s.assoc, c.ofName s.shownAs, c.ofName s.role]

def read (c : Coding) (fixed : Bool) (s : Step) : List Int :=
  [c.ofName s.shownAs, c.ofName s.role] ++ if fixed then [(c.place s.sym : Int)] else []

end Coding

/-- A place in a production together with its sorting key. -/
structure Place where
  head : Option Nat
  production : Production
  dot : Nat
  key : List Int
deriving Inhabited

def lexLe : List Int → List Int → Bool
  | [], _ => true
  | _ :: _, [] => false
  | a :: as, b :: bs => if a < b then true else if b < a then false else lexLe as bs

/-- The places of one production, from nothing read to all read. -/
def placesOf (g : Numbered) (c : Coding) (roles : Array (List String)) (head : Option Nat)
    (p : Production) : List Place :=
  let passesRoles (s : Step) : Bool := match s.sym with
    | .rule r => isHidden g s.sym && !(roles.getD r []).isEmpty
    | .token _ => false
  (List.range (p.steps.length + 1)).map fun dot =>
    let before := p.steps.take dot
    let fixed := before.any passesRoles
    let last := before.getLast?
    let headPlace : Int := match head with
      | some r => (r : Nat)
      | none => (g.rules.size : Nat)
    let marks : List Int := [Coding.ofPrec (last.bind Step.prec), Coding.ofAssoc (last.bind Step.assoc),
      if fixed then 1 else 0]
    let steps := before.flatMap (c.read fixed) ++ (p.steps.drop dot).flatMap c.toCome
    { head, production := p, dot
      key := [(dot : Int), headPlace, p.dynamic, (p.steps.length : Int)] ++ marks ++ steps }

/-- Numbers the items of a grammar. -/
def Items.ofNumbered (g : Numbered) : Items := Id.run do
  let roles := rolesOfRules g
  let names := (g.rules.toList.flatMap fun r => r.productions.flatMap fun p => p.steps.flatMap fun s =>
    s.shownAs.toList ++ s.role.toList).eraseDups.mergeSort fun a b => a ≤ b
  let orderOf : Array Nat := Id.run do
    let mut a := Array.replicate g.tokens.size 0
    for (t, i) in g.order.zipIdx do
      a := a.set! t i
    return a
  let coding : Coding :=
    { place := fun s => match s with
        | .token t => orderOf.getD t 0
        | .rule r => g.tokens.size + r
      names }
  let top : Production := ⟨[⟨.rule 0, none, none, none, none⟩], 0⟩
  let places := g.rules.toList.zipIdx.flatMap fun (r, i) => r.productions.map fun p =>
    placesOf g coding roles (some i) p
  let all := places ++ [placesOf g coding roles none top]
  let sorted := all.flatten.mergeSort fun a b => lexLe a.key b.key
  let mut numbers : Std.HashMap (List Int) Nat := {}
  let mut layouts : Array Layout := #[Layout.plain]
  let mut items : Array Item := #[]
  let mut startKey : List Int := []
  for p in sorted do
    if !numbers.contains p.key then
      numbers := numbers.insert p.key items.size
      let layout := Layout.ofProduction g roles p.production
      let index ← match layouts.findIdx? (· = layout) with
        | some i => pure i
        | none =>
          layouts := layouts.push layout
          pure (layouts.size - 1)
      let last := p.production.steps.take p.dot |>.getLast?
      if p.head.isNone && p.dot = 0 then startKey := p.key
      items := items.push
        { head := p.head
          next := p.production.steps[p.dot]?.map Step.sym
          advanced := 0
          afterNext := p.production.steps[p.dot + 1]?.map Step.sym
          dot := p.dot
          length := p.production.steps.length
          dynamic := p.production.dynamic
          prec := last.bind Step.prec
          assoc := last.bind Step.assoc
          layout := index }
  let mut initial : Array (List Nat) := Array.replicate g.rules.size []
  for row in all do
    for (a, b) in row.zip row.tail do
      let i := numbers.getD a.key 0
      items := items.modify i fun item => { item with advanced := numbers.getD b.key 0 }
    match row with
    | [] => pure ()
    | a :: _ => match a.head with
      | some r =>
        let n := numbers.getD a.key 0
        initial := initial.modify r fun l => if l.contains n then l else n :: l
      | none => pure ()
  return {
    items
    initial := initial.map fun l => l.mergeSort fun a b => a ≤ b
    start := numbers.getD startKey 0
    layouts
    tokenCount := g.tokens.size
    ruleCount := g.rules.size
    firstOfRule := endTokens g fun p => p.steps.head?.map Step.sym
    lastOfRule := endTokens g fun p => p.steps.getLast?.map Step.sym }

end Concordance.Lr
