import Concordance.Grammar.Rule
import Std.Data.HashMap

/-!
A grammar in the form the table builder works with: tokens and rules are numbered, and every rule is a
list of productions, each a row of steps. Repetition becomes a rule of its own that joins two runs of
the repeated item.
-/

namespace Concordance.Grammar

/-- A numbered token, or a numbered rule. -/
inductive Sym where
  | token (i : Nat)
  | rule (i : Nat)
deriving DecidableEq, Repr, Inhabited

inductive Assoc where
  | left
  | right
deriving DecidableEq, Repr, Inhabited

/-- One symbol of a production, with the marks that hold at it. -/
structure Step where
  sym : Sym
  prec : Option Int
  assoc : Option Assoc
  shownAs : Option String
  role : Option String
deriving DecidableEq, Repr, Inhabited

structure Production where
  steps : List Step
  dynamic : Int
deriving DecidableEq, Repr, Inhabited

/-- What a symbol looks like in a tree. -/
inductive Visibility where
  /-- A node under the symbol's name. -/
  | named
  /-- A node that stands for its own text. -/
  | anonymous
  | hidden
  /-- A hidden run of a repetition. -/
  | run
deriving DecidableEq, Repr, Inhabited

/-- What a token is made of. -/
structure TokenForm where
  name : String
  visibility : Visibility
  body : Rule
  immediate : Bool
  /-- Decides between two tokens of one length. -/
  level : Int
  /-- Decides between two tokens of one length and level: spelled out beats described. -/
  weight : Nat
deriving Inhabited

structure RuleForm where
  name : String
  visibility : Visibility
  productions : List Production
  /-- The name a hidden rule always shows under. -/
  shownAs : Option String
deriving Inhabited

/-- A grammar with numbered tokens and rules. Token 0 is the end of the text, token 1 the word. -/
structure Numbered where
  tokens : Array TokenForm
  /-- The tokens in the order in which the grammar mentions them. -/
  order : List Nat
  rules : Array RuleForm
  blanks : CharSet
  extras : List Nat
  supertypes : List Nat
deriving Inhabited

/-! ### Tokens -/

namespace Rule

/-- The token that a rule is as a whole, if it is one. -/
def asToken? : Rule → Option Rule
  | r@(text _) | r@(chars _) | r@(token _) | r@(immediate _) => some r
  | _ => none

/-- The tokens a rule mentions, in order and with repetitions. -/
def tokens : Rule → List Rule
  | r@(text _) | r@(chars _) | r@(token _) | r@(immediate _) => [r]
  | blank | ref _ => []
  | cat a b | alt a b => a.tokens ++ b.tokens
  | many1 r | binds _ r | left _ r | right _ r | dynamic _ r | field _ r | shownAs _ r => r.tokens

/-- The level and the body of a token's inner rule. -/
def tokenBody : Rule → Int × Rule
  | binds p r => (p, r)
  | r => (0, r)

def isText : Rule → Bool
  | text _ => true
  | _ => false

end Rule

def TokenForm.ofRule (r : Rule) : TokenForm :=
  match r with
  | .text s => ⟨s, .anonymous, r, false, 0, 2⟩
  | .token inner =>
    let (level, body) := inner.tokenBody
    ⟨"", .run, body, false, level, if body.isText then 2 else 0⟩
  | .immediate inner =>
    let (level, body) := inner.tokenBody
    ⟨"", .run, body, true, level, if body.isText then 3 else 1⟩
  | _ => ⟨"", .run, r, false, 0, 0⟩

/-- The visibility that a rule's name announces: a leading underscore hides it. -/
def visibilityOf (name : String) : Visibility :=
  if name.startsWith "_" then .hidden else .named

/-! ### Repetition and alternatives -/

/-- A rule whose tokens, references and repetitions are symbols. -/
inductive Shape where
  | blank
  | sym (s : Sym)
  | cat (first second : Shape)
  | alt (first second : Shape)
  | marked (prec : Option Int) (assoc : Option Assoc) (dynamic : Int) (body : Shape)
  | field (role : String) (body : Shape)
  | shownAs (name : String) (body : Shape)
deriving DecidableEq, Repr, Inhabited

/-- The repetitions met so far, each with its own rule number. -/
structure Runs where
  first : Nat
  bodies : Array (String × Shape)

namespace Runs

/-- The rule for runs of `body`, a new one unless there is one already. -/
def symbol (runs : Runs) (owner : String) (body : Shape) : Sym × Runs :=
  match runs.bodies.findIdx? fun b => b.2 = body with
  | some i => (.rule (runs.first + i), runs)
  | none =>
    (.rule (runs.first + runs.bodies.size), { runs with bodies := runs.bodies.push (owner, body) })

/-- A run is one item, or two runs. -/
def shape (s : Sym) (body : Shape) : Shape := .alt (.cat (.sym s) (.sym s)) body

end Runs

/-- Names and tokens to symbols, and repetitions to rules. -/
def Rule.shape (symbolOf : Rule → Sym) (owner : String) : Rule → Runs → Shape × Runs
  | .blank, runs => (.blank, runs)
  | r@(.text _), runs | r@(.chars _), runs | r@(.ref _), runs | r@(.token _), runs
  | r@(.immediate _), runs => (.sym (symbolOf r), runs)
  | .cat a b, runs =>
    let (x, runs) := a.shape symbolOf owner runs
    let (y, runs) := b.shape symbolOf owner runs
    (.cat x y, runs)
  | .alt a b, runs =>
    let (x, runs) := a.shape symbolOf owner runs
    let (y, runs) := b.shape symbolOf owner runs
    (.alt x y, runs)
  | .many1 r, runs =>
    let (x, runs) := r.shape symbolOf owner runs
    let (s, runs) := runs.symbol owner x
    (.sym s, runs)
  | .binds p r, runs =>
    let (x, runs) := r.shape symbolOf owner runs
    (.marked (some p) none 0 x, runs)
  | .left p r, runs =>
    let (x, runs) := r.shape symbolOf owner runs
    (.marked (some p) (some .left) 0 x, runs)
  | .right p r, runs =>
    let (x, runs) := r.shape symbolOf owner runs
    (.marked (some p) (some .right) 0 x, runs)
  | .dynamic p r, runs =>
    let (x, runs) := r.shape symbolOf owner runs
    (.marked none none p x, runs)
  | .field role r, runs =>
    let (x, runs) := r.shape symbolOf owner runs
    (.field role x, runs)
  | .shownAs name r, runs =>
    let (x, runs) := r.shape symbolOf owner runs
    (.shownAs name x, runs)

/-- The marks that hold at a place inside a rule. -/
structure Marks where
  prec : Option Int := none
  assoc : Option Assoc := none
  shownAs : Option String := none
  role : Option String := none

/-- Of two dynamic preferences on one way through a rule the stronger one counts, the outer on a tie. -/
def stronger (outer inner : Int) : Int := if inner.natAbs > outer.natAbs then inner else outer

/-- Changes the last step of a production, if there is one. -/
def mapLast (f : Step → Step) : List Step → List Step
  | [] => []
  | [s] => [f s]
  | s :: rest => s :: mapLast f rest

/-- Every way through a shape. `atEnd` tells that nothing of the rule follows: a level that stops
earlier does not hold at its own last step, where the outer one holds again. -/
def Shape.productions (marks : Marks) (atEnd : Bool) : Shape → List Production
  | .blank => [⟨[], 0⟩]
  | .sym s => [⟨[⟨s, marks.prec, marks.assoc, marks.shownAs, marks.role⟩], 0⟩]
  | .cat a b =>
    (a.productions marks false).flatMap fun p =>
      (b.productions marks atEnd).map fun q =>
        ⟨p.steps ++ q.steps, stronger p.dynamic q.dynamic⟩
  | .alt a b => a.productions marks atEnd ++ b.productions marks atEnd
  | .marked prec assoc dynamic body =>
    (body.productions
      { marks with prec := prec.orElse fun _ => marks.prec, assoc := assoc.orElse fun _ => marks.assoc }
      atEnd).map fun p =>
        let steps := if atEnd then p.steps else
          let steps := if prec.isSome then mapLast (fun s => { s with prec := marks.prec }) p.steps
            else p.steps
          if assoc.isSome then mapLast (fun s => { s with assoc := marks.assoc }) steps else steps
        ⟨steps, stronger dynamic p.dynamic⟩
  | .field role body => body.productions { marks with role := some role } atEnd
  | .shownAs name body => body.productions { marks with shownAs := some name } atEnd

/-- The productions of a rule, each once. -/
def Shape.flatten (s : Shape) : List Production :=
  (s.productions {} true).foldl (fun ps p => if ps.contains p then ps else ps ++ [p]) []

/-! ### Names that a symbol always shows under -/

/-- The names that steps give to each symbol, with their counts; `none` once a step gives none. -/
def nameCounts (rules : Array RuleForm) (skip : Sym → Bool) :
    List (Sym × Option (List (String × Nat))) := Id.run do
  let mut counts : List (Sym × Option (List (String × Nat))) := []
  for r in rules do
    for p in r.productions do
      for s in p.steps do
        if !skip s.sym then
          let old := (counts.find? fun c => c.1 = s.sym).map Prod.snd
          let new : Option (List (String × Nat)) := match old, s.shownAs with
            | some none, _ | _, none => none
            | none, some a => some [(a, 1)]
            | some (some names), some a =>
              if names.any fun n => n.1 = a then
                some (names.map fun n => if n.1 = a then (n.1, n.2 + 1) else n)
              else some (names ++ [(a, 1)])
          counts := if old.isSome then counts.map fun c => if c.1 = s.sym then (c.1, new) else c
            else counts ++ [(s.sym, new)]
  return counts

/-- The most used name, the earlier one on a tie. -/
def mostUsed : List (String × Nat) → Option String
  | [] => none
  | n :: rest => some (rest.foldl (fun best m => if m.2 > best.2 then m else best) n).1

/-- The symbols that never show under their own name, each with the name it mostly shows under. -/
def standingNames (rules : Array RuleForm) (skip : Sym → Bool) : List (Sym × String) :=
  (nameCounts rules skip).filterMap fun c => do
    let names ← c.2
    let a ← mostUsed names
    return (c.1, a)

/-- Drops from the steps the names that their symbols have anyway. A name stays where another
production of the rule needs it at the same place. -/
def dropStandingNames (names : List (Sym × String)) (productions : List Production) :
    List Production :=
  let standing (s : Step) : Bool := s.shownAs.isSome && (names.lookup s.sym) == s.shownAs
  productions.map fun p =>
    { p with steps := p.steps.mapIdx fun j s =>
        let needed := productions.any fun q => q != p && match q.steps[j]? with
          | some t => t.shownAs == s.shownAs && !standing t
          | none => false
        if standing s && !needed then { s with shownAs := none } else s }

/-! ### Inlining -/

/-- Puts the steps of `inner` in the place of `outer`. -/
def Step.replacedBy (outer : Step) (inner : Production) : List Step :=
  let steps := inner.steps.map fun s =>
    { s with
      shownAs := outer.shownAs.orElse fun _ => s.shownAs
      role := outer.role.orElse fun _ => s.role }
  mapLast (fun s =>
    { s with
      prec := s.prec.orElse fun _ => outer.prec
      assoc := s.assoc.orElse fun _ => outer.assoc }) steps

/-- Every production that arises by replacing the symbols for which `bodies` has productions. -/
def inline (bodies : Sym → Option (List Production)) (p : Production) : List Production :=
  p.steps.foldl (fun acc s =>
    match bodies s.sym with
    | none => acc.map fun q => { q with steps := q.steps ++ [s] }
    | some inner => acc.flatMap fun q => inner.map fun i =>
        ⟨q.steps ++ s.replacedBy i, stronger q.dynamic i.dynamic⟩)
    [⟨[], p.dynamic⟩]

/-! ### Numbering -/

/-- The distinct tokens of a grammar in order, each with the number of its mentions. -/
def Description.tokenUses (g : Description) : Array (Rule × Nat) :=
  g.rules.foldl (fun uses r => r.2.tokens.foldl (fun uses t =>
    match uses.findIdx? fun u => u.1 = t with
    | some i => uses.modify i fun u => (u.1, u.2 + 1)
    | none => uses.push (t, 1)) uses) #[]

/-- The place of the token that is the whole of the named rule and of no other. -/
def Description.ownToken? (g : Description) (uses : Array (Rule × Nat)) (name : String) :
    Option Nat := do
  let r ← g.rules.lookup name
  let t ← r.asToken?
  let i ← uses.findIdx? fun u => u.1 = t
  let u ← uses[i]?
  if u.2 = 1 then some i else none

/-- Numbers the tokens and rules of a grammar and flattens its rules. -/
def Description.numbered (g : Description) : Numbered := Id.run do
  let uses := g.tokenUses
  let owned := g.rules.filterMap fun r => (g.ownToken? uses r.1).map fun i => (r.1, i)
  let word := (owned.lookup g.word).getD 0
  -- the word is token 1, the others follow in order
  let number (i : Nat) : Nat := if i = word then 1 else if i < word then i + 2 else i + 1
  let mut tokens : Array TokenForm := Array.replicate (uses.size + 1) ⟨"end", .hidden, .blank, false, 0, 0⟩
  for i in [0:uses.size] do
    let form := match uses[i]? with
      | some u => TokenForm.ofRule u.1
      | none => default
    let form := match owned.find? fun o => o.2 = i with
      | some o => { form with name := o.1, visibility := visibilityOf o.1 }
      | none => form
    tokens := tokens.set! (number i) form
  let kept := g.rules.filter fun r => (owned.lookup r.1).isNone
  let mut symbols : Std.HashMap String Sym := {}
  for (name, i) in owned do
    symbols := symbols.insert name (.token (number i))
  for ((name, _), i) in kept.zipIdx do
    symbols := symbols.insert name (.rule i)
  let named := symbols
  let symbolOf (r : Rule) : Sym := match r with
    | .ref name => named.getD name (.token 0)
    | t => match uses.findIdx? fun u => u.1 = t with
      | some i => .token (number i)
      | none => .token 0
  let mut runs : Runs := ⟨kept.length, #[]⟩
  let mut forms : Array RuleForm := #[]
  for (name, r) in kept do
    let (shape, later) := r.shape symbolOf name runs
    runs := later
    let visibility := if g.supertypes.contains name then .hidden else visibilityOf name
    forms := forms.push ⟨name, visibility, shape.flatten, none⟩
  for ((owner, body), i) in runs.bodies.toList.zipIdx do
    let s := Sym.rule (runs.first + i)
    forms := forms.push ⟨owner ++ "_run", .run, (Runs.shape s body).flatten, none⟩
  let inlined := g.inlined.filterMap fun name => named.get? name
  let names := standingNames forms fun s => match s with
    | .token _ => true
    | .rule _ => inlined.contains s
  forms := forms.mapIdx fun i f =>
    { f with
      productions := dropStandingNames names f.productions
      shownAs := names.lookup (.rule i) }
  let flat := forms
  let bodies (s : Sym) : Option (List Production) :=
    if inlined.contains s then match s with
      | .rule i => flat[i]?.map RuleForm.productions
      | .token _ => none
    else none
  forms := forms.map fun f => { f with productions := f.productions.flatMap (inline bodies) }
  let token? (name : String) : Option Nat := match named.get? name with
    | some (.token i) => some i
    | _ => none
  let rule? (name : String) : Option Nat := match named.get? name with
    | some (.rule i) => some i
    | _ => none
  return {
    tokens
    order := (List.range uses.size).map number
    rules := forms
    blanks := g.blanks
    extras := g.extras.filterMap token?
    supertypes := g.supertypes.filterMap rule? }

end Concordance.Grammar
