import Mathlib
import Concordance.Java.Summary
import Concordance.Proofs.Folds
import Concordance.Proofs.Java.Walk

/-!
What the summary of a tree says: which names are declared, which are referred to, which types stand at
the top and what the package is. A node is marked as the name of a declaration by a visit to the node
that declares it or to the declaration around that node, and both are visited before it.
-/

namespace Concordance.Java

/-- The kinds of declarations that have a name of their own. -/
def Kind.declares : Kind → Bool
  | .classDeclaration | .interfaceDeclaration | .enumDeclaration | .recordDeclaration
  | .annotationTypeDeclaration | .methodDeclaration | .constructorDeclaration
  | .compactConstructorDeclaration | .annotationElementDeclaration | .enumConstant => true
  | _ => false

namespace Cursor

/-- The node is a declaration with a name of its own, a declarator of a field or a constant, or a
component of a record. -/
def Declares (c : Cursor) : Prop :=
  c.node.kind.declares = true ∨
  c.node.role = some .declarator ∧
    (c.parent?.map Node.kind = some .fieldDeclaration ∨ c.parent?.map Node.kind = some .constantDeclaration) ∨
  c.node.kind = .formalParameter ∧ c.parent?.map Node.kind = some .formalParameters ∧
    c.grandparent?.map Node.kind = some .recordDeclaration

/-- The node above declares its name, and this is it. -/
def IsName (c : Cursor) : Prop :=
  ∃ p, c.ancestors.head? = some p ∧ p.Declares ∧ p.node.name? = some c.node

def IsIdentifier (c : Cursor) : Prop := c.node.kind = .identifier ∨ c.node.kind = .typeIdentifier

/-- No package declaration is around the node. -/
def Outside (c : Cursor) : Prop := ∀ a ∈ c.ancestors, a.node.kind ≠ .packageDeclaration

/-- The nodes that a visit declares the names of. -/
def declarers (c : Cursor) : List Node :=
  if c.node.kind.declares then [c.node]
  else match c.node.kind with
    | .fieldDeclaration | .constantDeclaration => c.node.declarators
    | .formalParameter => if isRecordComponent c then [c.node] else []
    | _ => []

def names (c : Cursor) : List Node := c.declarers.filterMap Node.name?

/-- The type that a visit records at the top. -/
def topType? (source : String) (c : Cursor) : Option TopLevelType :=
  if c.parent?.map Node.kind = some .program then
    c.node.name?.bind fun name => (typeKind? c.node.kind).map fun kind => ⟨Tree.textOf source name, kind⟩
  else none

theorem topType?_eq_none {source : String} {c : Cursor} (h : typeKind? c.node.kind = none) :
    c.topType? source = none := by
  simp [topType?, h]

theorem names_of_package {c : Cursor} (h : c.node.kind = .packageDeclaration) : c.names = [] := by
  simp [names, declarers, h, Kind.declares]

theorem topType?_of_package {source : String} {c : Cursor} (h : c.node.kind = .packageDeclaration) :
    c.topType? source = none :=
  topType?_eq_none (by rw [h]; rfl)

theorem IsIdentifier.kind_ne {c : Cursor} (h : c.IsIdentifier) : c.node.kind ≠ .packageDeclaration := by
  rcases h with h | h <;> simp [h]

theorem IsIdentifier.names_eq_nil {c : Cursor} (h : c.IsIdentifier) : c.names = [] := by
  rcases h with h | h <;> simp [names, declarers, h, Kind.declares]

theorem IsIdentifier.topType?_eq_none {source : String} {c : Cursor} (h : c.IsIdentifier) :
    c.topType? source = none :=
  Cursor.topType?_eq_none (by rcases h with h | h <;> rw [h] <;> rfl)

theorem topType?_eq_some_iff {source : String} {c : Cursor} {type : TopLevelType} :
    c.topType? source = some type ↔ ∃ n, c.parent?.map Node.kind = some .program ∧ c.node.name? = some n ∧
      typeKind? c.node.kind = some type.kind ∧ Tree.textOf source n = type.name := by
  obtain ⟨name, kind⟩ := type
  rw [topType?]
  split
  · next h =>
    simp only [Option.bind_eq_some_iff, Option.map_eq_some_iff, TopLevelType.mk.injEq, h, true_and]
    exact exists_congr fun n => and_congr_right fun _ =>
      ⟨fun ⟨_, hkind, htext, heq⟩ => ⟨heq ▸ hkind, htext⟩, fun ⟨hkind, htext⟩ => ⟨_, hkind, htext, rfl⟩⟩
  · next h => exact ⟨nofun, fun ⟨_, hparent, _⟩ => absurd hparent h⟩

/-- A type at the top is declared under its name. -/
theorem mem_names_of_topType? {source : String} {c : Cursor} {type : TopLevelType}
    (h : c.topType? source = some type) : ∃ n ∈ c.names, Tree.textOf source n = type.name := by
  obtain ⟨n, -, hname, hkind, htext⟩ := topType?_eq_some_iff.mp h
  have hdeclares : c.node.kind.declares = true := by
    cases hk : c.node.kind <;> first | rfl | (rw [hk] at hkind; cases hkind)
  refine ⟨n, ?_, htext⟩
  rw [names, declarers, if_pos hdeclares]
  exact List.mem_filterMap.mpr ⟨c.node, List.mem_singleton_self _, hname⟩

end Cursor

namespace Node

/-- The node that names a package. -/
def packageNode? (n : Node) : Option Node :=
  n.children.find? fun c => c.info.named && (c.kind = .scopedIdentifier || c.kind = .identifier)

/-- The identifiers of a name, in order. -/
def identifiers (n : Node) : List Node :=
  (n.preorder fun n => n.kind ≠ .identifier).filter fun n => n.kind = .identifier

/-- The package that a node declares, if it is a package declaration with a name. -/
def package? (source : String) (n : Node) : Option String :=
  if n.kind = .packageDeclaration then
    n.packageNode?.map fun name => String.intercalate "." (name.identifiers.map (Tree.textOf source))
  else none

end Node

theorem segments_eq (source : String) (name : Node) :
    segments source name = name.identifiers.map (Tree.textOf source) := by
  have gather : ∀ (places : List Cursor) (texts : List String),
      places.foldl (fun texts c =>
        if c.node.kind = .identifier then Tree.textOf source c.node :: texts else texts) texts =
      (((places.map Cursor.node).filter fun n => n.kind = .identifier).map (Tree.textOf source)).reverse ++
        texts := by
    intro places
    induction places with
    | nil => simp
    | cons c rest ih =>
      intro texts
      rw [List.foldl_cons, ih]
      by_cases h : c.node.kind = .identifier <;> simp [h]
  rw [segments, Cursor.walk_eq_foldl, gather, Cursor.map_node_trail, List.append_nil, List.reverse_reverse]
  rfl

theorem packageName?_eq {source : String} {n : Node} (h : n.kind = .packageDeclaration) :
    packageName? source n = n.package? source := by
  rw [packageName?, Node.package?, if_pos h]
  exact congrFun (congrArg _ (funext fun name => by rw [segments_eq])) _

/-! ### What a visit adds -/

namespace Extraction

variable {source : String}

/-- Adds a type at the top, if there is one. -/
def addTop (e : Extraction) : Option TopLevelType → Extraction
  | some type => { e with summary := e.summary.addType type }
  | none => e

theorem recordNamed_eq (e : Extraction) (n : Node) :
    e.recordNamed source n = ([n].filterMap Node.name?).foldl (declare source) e := by
  cases h : n.name? with
  | none => simp [recordNamed, h]
  | some name => simp [recordNamed, h]

theorem recordDeclarators_eq (e : Extraction) (n : Node) :
    e.recordDeclarators source n = (n.declarators.filterMap Node.name?).foldl (declare source) e := by
  rw [recordDeclarators]
  induction n.declarators generalizing e with
  | nil => rfl
  | cons d rest ih =>
    rw [List.foldl_cons, ih, recordNamed_eq, ← List.foldl_append, ← List.filterMap_append]
    rfl

theorem recordType_eq (e : Extraction) (c : Cursor) :
    e.recordType source c =
      (([c.node].filterMap Node.name?).foldl (declare source) e).addTop (c.topType? source) := by
  cases hname : c.node.name? with
  | none => simp [recordType, Cursor.topType?, hname, addTop]
  | some name =>
    cases hkind : typeKind? c.node.kind with
    | none => simp [recordType, Cursor.topType?, hname, hkind, addTop]
    | some kind =>
      by_cases hparent : c.parent?.map Node.kind = some .program
      · simp [recordType, Cursor.topType?, hname, hkind, hparent, addTop]
      · simp [recordType, Cursor.topType?, hname, hkind, hparent, addTop]

/-- A visit records a package or a use, or it declares names and perhaps a type at the top. -/
theorem visit_cases (source : String) (c : Cursor) (e : Extraction) :
    (c.node.kind = .packageDeclaration ∧ visit source c e = e.recordPackage source c.node) ∨
    (c.IsIdentifier ∧ visit source c e = e.recordUse source c.node) ∨
    (c.node.kind ≠ .packageDeclaration ∧ ¬c.IsIdentifier ∧
      visit source c e = (c.names.foldl (declare source) e).addTop (c.topType? source)) := by
  -- The kinds that no arm names neither declare nor stand at the top.
  cases hkind : c.node.kind
  case packageDeclaration => exact .inl ⟨rfl, by rw [visit, hkind]⟩
  case identifier => exact .inr (.inl ⟨.inl hkind, by rw [visit, hkind]⟩)
  case typeIdentifier => exact .inr (.inl ⟨.inr hkind, by rw [visit, hkind]⟩)
  case formalParameter =>
    refine .inr (.inr ⟨nofun, by simp [Cursor.IsIdentifier, hkind], ?_⟩)
    by_cases h : isRecordComponent c = true
    · simp only [visit, hkind, h, recordNamed_eq, Cursor.names, Cursor.declarers, Kind.declares,
        Cursor.topType?_eq_none, typeKind?, addTop, if_true, Bool.false_eq_true, if_false]
    · simp only [visit, hkind, h, Cursor.names, Cursor.declarers, Kind.declares,
        Cursor.topType?_eq_none, typeKind?, addTop, Bool.false_eq_true, if_false,
        List.filterMap_nil, List.foldl_nil]
  all_goals
    refine .inr (.inr ⟨nofun, by simp [Cursor.IsIdentifier, hkind], ?_⟩)
    simp only [visit, hkind, recordNamed_eq, recordType_eq, recordDeclarators_eq, Cursor.names,
      Cursor.declarers, Kind.declares, Cursor.topType?_eq_none, typeKind?, addTop, if_true, if_false,
      Bool.false_eq_true, List.filterMap_nil, List.foldl_nil]

theorem recordPackage_eq (e : Extraction) (n : Node) :
    e.recordPackage source n =
      { e with summary.package := (packageName? source n).getD e.summary.package } := by
  rw [recordPackage]
  cases packageName? source n <;> rfl

theorem recordUse_eq (e : Extraction) (n : Node) :
    e.recordUse source n =
      { e with summary.referenced := if e.marked.contains n.id then e.summary.referenced
                else e.summary.referenced.insert (Tree.textOf source n) } := by
  rw [recordUse]
  split <;> rfl

theorem foldl_declare_eq (names : List Node) (e : Extraction) :
    names.foldl (declare source) e =
      { e with
        summary.declared := names.foldl (fun d n => d.insert (Tree.textOf source n)) e.summary.declared
        marked := names.foldl (fun m n => m.insert n.id) e.marked } := by
  induction names generalizing e with
  | nil => rfl
  | cons n rest ih => exact ih _

theorem addTop_eq (e : Extraction) (top : Option TopLevelType) :
    e.addTop top =
      { e with
        summary.types := top.elim e.summary.types e.summary.types.insert
        summary.declared := top.elim e.summary.declared fun t => e.summary.declared.insert t.name } := by
  cases top <;> rfl

variable {c : Cursor} {e : Extraction}

theorem visit_package :
    (visit source c e).summary.package = (c.node.package? source).getD e.summary.package := by
  obtain ⟨h, hvisit⟩ | ⟨h, hvisit⟩ | ⟨h, -, hvisit⟩ := visit_cases source c e
  · rw [hvisit, recordPackage_eq, packageName?_eq h]
  · rw [hvisit, recordUse_eq, Node.package?, if_neg h.kind_ne, Option.getD_none]
  · rw [hvisit, addTop_eq, foldl_declare_eq, Node.package?, if_neg h, Option.getD_none]

theorem mem_types_visit {type : TopLevelType} :
    type ∈ (visit source c e).summary.types ↔
      type ∈ e.summary.types ∨ c.topType? source = some type := by
  obtain ⟨h, hvisit⟩ | ⟨h, hvisit⟩ | ⟨-, -, hvisit⟩ := visit_cases source c e
  · simp [hvisit, recordPackage_eq, Cursor.topType?_of_package h]
  · simp [hvisit, recordUse_eq, h.topType?_eq_none]
  · rw [hvisit, addTop_eq, foldl_declare_eq]
    cases c.topType? source with
    | none => simp
    | some top => simp [Std.ExtTreeSet.mem_insert, or_comm]

theorem mem_declared_visit {name : String} :
    name ∈ (visit source c e).summary.declared ↔
      name ∈ e.summary.declared ∨ ∃ n ∈ c.names, Tree.textOf source n = name := by
  obtain ⟨h, hvisit⟩ | ⟨h, hvisit⟩ | ⟨-, -, hvisit⟩ := visit_cases source c e
  · simp [hvisit, recordPackage_eq, Cursor.names_of_package h]
  · simp [hvisit, recordUse_eq, h.names_eq_nil]
  · rw [hvisit, addTop_eq, foldl_declare_eq]
    cases htop : c.topType? source with
    | none => exact mem_foldl_insert (Tree.textOf source)
    | some top =>
      -- Recording the type declares its name once more.
      obtain ⟨n, hn, hname⟩ := Cursor.mem_names_of_topType? htop
      simp only [Option.elim, Std.ExtTreeSet.mem_insert, mem_foldl_insert, Std.LawfulEqCmp.compare_eq_iff_eq]
      exact or_iff_right_of_imp fun h => .inr ⟨n, hn, hname.trans h⟩

theorem mem_marked_visit {id : Nat} :
    id ∈ (visit source c e).marked ↔ id ∈ e.marked ∨ ∃ n ∈ c.names, n.id = id := by
  obtain ⟨h, hvisit⟩ | ⟨h, hvisit⟩ | ⟨-, -, hvisit⟩ := visit_cases source c e
  · simp [hvisit, recordPackage_eq, Cursor.names_of_package h]
  · simp [hvisit, recordUse_eq, h.names_eq_nil]
  · rw [hvisit, addTop_eq, foldl_declare_eq]
    exact mem_foldl_insert Node.id

theorem mem_referenced_visit {name : String} :
    name ∈ (visit source c e).summary.referenced ↔ name ∈ e.summary.referenced ∨
      c.IsIdentifier ∧ c.node.id ∉ e.marked ∧ Tree.textOf source c.node = name := by
  obtain ⟨h, hvisit⟩ | ⟨h, hvisit⟩ | ⟨-, h, hvisit⟩ := visit_cases source c e
  · simp [hvisit, recordPackage_eq, Cursor.IsIdentifier, h]
  · rw [hvisit, recordUse_eq]
    by_cases hmarked : c.node.id ∈ e.marked
    · simp [Std.ExtTreeSet.contains_iff_mem.mpr hmarked, hmarked]
    · have hcontains : ¬e.marked.contains c.node.id = true :=
        fun hmem => hmarked (Std.ExtTreeSet.contains_iff_mem.mp hmem)
      simp only [if_neg hcontains, Std.ExtTreeSet.mem_insert, Std.LawfulEqCmp.compare_eq_iff_eq]
      exact or_comm.trans (or_congr_right ⟨fun htext => ⟨h, hmarked, htext⟩, fun huse => huse.2.2⟩)
  · simp [hvisit, addTop_eq, foldl_declare_eq, h]

/-! ### What a walk adds -/

def visitAll (source : String) (e : Extraction) (places : List Cursor) : Extraction :=
  places.foldl (fun e c => visit source c e) e

variable {places : List Cursor}

theorem mem_types_visitAll {type : TopLevelType} :
    type ∈ (e.visitAll source places).summary.types ↔
      type ∈ e.summary.types ∨ ∃ c ∈ places, c.topType? source = some type :=
  foldl_iff (P := fun e => type ∈ e.summary.types) (f := fun e c => visit source c e)
    (fun _ _ => mem_types_visit) places e

theorem mem_declared_visitAll {name : String} :
    name ∈ (e.visitAll source places).summary.declared ↔
      name ∈ e.summary.declared ∨ ∃ c ∈ places, ∃ n ∈ c.names, Tree.textOf source n = name :=
  foldl_iff (P := fun e => name ∈ e.summary.declared) (f := fun e c => visit source c e)
    (fun _ _ => mem_declared_visit) places e

theorem mem_marked_visitAll {id : Nat} :
    id ∈ (e.visitAll source places).marked ↔ id ∈ e.marked ∨ ∃ c ∈ places, ∃ n ∈ c.names, n.id = id :=
  foldl_iff (P := fun e => id ∈ e.marked) (f := fun e c => visit source c e)
    (fun _ _ => mem_marked_visit) places e

/-- A reference is an identifier that is not marked by the time it is visited. -/
theorem mem_referenced_visitAll {name : String} :
    name ∈ (e.visitAll source places).summary.referenced ↔ name ∈ e.summary.referenced ∨
      ∃ before c later, places = before ++ c :: later ∧ c.IsIdentifier ∧
        c.node.id ∉ (e.visitAll source before).marked ∧ Tree.textOf source c.node = name := by
  induction places generalizing e with
  | nil => simp [visitAll]
  | cons c rest ih =>
    rw [visitAll, List.foldl_cons, ← visitAll, ih, mem_referenced_visit, or_assoc]
    refine or_congr_right ⟨?_, ?_⟩
    · rintro (h | ⟨before, x, later, rfl, h⟩)
      · exact ⟨[], c, rest, rfl, h⟩
      · exact ⟨c :: before, x, later, rfl, h⟩
    · rintro ⟨before, x, later, heq, h⟩
      cases before with
      | nil =>
        cases heq
        exact .inl h
      | cons b before =>
        cases heq
        exact .inr ⟨before, x, later, rfl, h⟩

theorem visitAll_package :
    (e.visitAll source places).summary.package =
      ((places.filterMap fun c => c.node.package? source).getLast?).getD e.summary.package :=
  foldl_getLast? (g := fun e : Extraction => e.summary.package) (f := fun e c => visit source c e)
    (fun _ _ => visit_package) places e

end Extraction

/-! ### Declared names -/

namespace Cursor

variable {root : Node} {c : Cursor}

/-- The places that are visited for a summary. -/
def outer (root : Node) : List Cursor := (atRoot root).trail fun n => n.kind ≠ .packageDeclaration

theorem mem_outer_iff : c ∈ outer root ↔ c.In root ∧ c.Outside := by
  rw [outer, mem_trail_iff]
  exact ⟨fun h => ⟨h.isIn, fun a ha => of_decide_eq_true (h.descends a ha)⟩,
    fun h => ⟨h.1, fun a ha => decide_eq_true (h.2 a ha)⟩⟩

theorem Outside.ancestor {a : Cursor} (hout : c.Outside) (ha : a ∈ c.ancestors) : a.Outside :=
  fun b hb => hout b (ancestors_subset ha hb)

theorem ancestor_mem_outer {a : Cursor} (hc : c ∈ outer root) (ha : a ∈ c.ancestors) : a ∈ outer root := by
  obtain ⟨hin, hout⟩ := mem_outer_iff.mp hc
  exact mem_outer_iff.mpr ⟨hin.ancestor ha, hout.ancestor ha⟩

/-- A name is declared by a visit to the node that declares it or to the one above. -/
theorem Declares.exists_mem_declarers (hin : c.In root) (h : c.Declares) :
    ∃ p ∈ c :: c.ancestors, c.node ∈ p.declarers := by
  rcases h with h | ⟨hrole, hparent⟩ | ⟨hkind, hparent, hgrandparent⟩
  · refine ⟨c, List.mem_cons_self, ?_⟩
    rw [declarers, if_pos h]
    exact List.mem_singleton_self _
  · cases hin with
    | top => simp [parent?, atRoot] at hparent
    | @child p n left right hin hchildren =>
      refine ⟨p, List.mem_cons_of_mem _ List.mem_cons_self, ?_⟩
      have hmem : n ∈ p.node.declarators :=
        List.mem_filter.mpr ⟨hchildren ▸ List.mem_append_right _ List.mem_cons_self, decide_eq_true hrole⟩
      rw [parent?_child, Option.map_some, Option.some_inj, Option.some_inj] at hparent
      rcases hparent with h | h <;> simpa [declarers, h, Kind.declares] using hmem
  · refine ⟨c, List.mem_cons_self, ?_⟩
    simp [declarers, hkind, Kind.declares, isRecordComponent, hparent, hgrandparent]

theorem outside_atRoot (root : Node) : (atRoot root).Outside := fun _ ha => absurd ha List.not_mem_nil

theorem Outside.child {n : Node} {right : List Node} (hout : c.Outside)
    (hkind : c.node.kind ≠ .packageDeclaration) : (c.child n right).Outside :=
  List.forall_mem_cons.mpr ⟨hkind, hout⟩

theorem declarator_mem_outer {n : Node} (hc : c ∈ outer root)
    (hkind : c.node.kind = .fieldDeclaration ∨ c.node.kind = .constantDeclaration)
    (hn : n ∈ c.node.declarators) : ∃ p ∈ outer root, p.Declares ∧ p.node = n := by
  obtain ⟨hin, hout⟩ := mem_outer_iff.mp hc
  obtain ⟨hmem, hrole⟩ := List.mem_filter.mp hn
  obtain ⟨left, right, hchildren⟩ := List.append_of_mem hmem
  have hne : c.node.kind ≠ .packageDeclaration := by rcases hkind with h | h <;> simp [h]
  exact ⟨c.child n right, mem_outer_iff.mpr ⟨hin.child hchildren, hout.child hne⟩,
    .inr (.inl ⟨of_decide_eq_true hrole, hkind.imp (congrArg some) (congrArg some)⟩), rfl⟩

theorem exists_declares {n : Node} (hc : c ∈ outer root) (hn : n ∈ c.declarers) :
    ∃ p ∈ outer root, p.Declares ∧ p.node = n := by
  rw [declarers] at hn
  split at hn
  · next h =>
    rw [List.mem_singleton] at hn
    exact ⟨c, hc, .inl h, hn.symm⟩
  · split at hn
    · next h => exact declarator_mem_outer hc (.inl h) hn
    · next h => exact declarator_mem_outer hc (.inr h) hn
    · next h =>
      split at hn
      · next hcomponent =>
        rw [List.mem_singleton] at hn
        rw [isRecordComponent, Bool.and_eq_true] at hcomponent
        exact ⟨c, hc, .inr (.inr ⟨h, of_decide_eq_true hcomponent.1, of_decide_eq_true hcomponent.2⟩), hn.symm⟩
      · cases hn
    · cases hn

theorem exists_names_iff {P : Node → Prop} :
    (∃ c ∈ outer root, ∃ n ∈ c.names, P n) ↔
      ∃ (c : Cursor) (n : Node), c.In root ∧ c.Outside ∧ c.Declares ∧ c.node.name? = some n ∧ P n := by
  constructor
  · rintro ⟨c, hc, n, hn, h⟩
    obtain ⟨d, hd, hname⟩ := List.mem_filterMap.mp hn
    obtain ⟨p, hp, hdeclares, rfl⟩ := exists_declares hc hd
    obtain ⟨hin, hout⟩ := mem_outer_iff.mp hp
    exact ⟨p, n, hin, hout, hdeclares, hname, h⟩
  · rintro ⟨c, n, hin, hout, hdeclares, hname, h⟩
    have hc : c ∈ outer root := mem_outer_iff.mpr ⟨hin, hout⟩
    obtain ⟨p, hp, hmem⟩ := hdeclares.exists_mem_declarers hin
    have hp : p ∈ outer root := by
      rcases List.mem_cons.mp hp with rfl | hp
      · exact hc
      · exact ancestor_mem_outer hc hp
    exact ⟨p, hp, n, List.mem_filterMap.mpr ⟨c.node, hmem, hname⟩, h⟩

/-- When an identifier is visited, it is marked just if it is the name of a declaration. -/
theorem marked_iff_isName (distinct : root.DistinctIds) {before later : List Cursor}
    (h : outer root = before ++ c :: later) :
    (∃ p ∈ before, ∃ n ∈ p.names, n.id = c.node.id) ↔ c.IsName := by
  have hc : c.In root := (mem_outer_iff.mp (h ▸ List.mem_append_right _ List.mem_cons_self)).1
  constructor
  · rintro ⟨p, hp, n, hn, hid⟩
    obtain ⟨m, n, hin, -, hdeclares, hname, hid⟩ := exists_names_iff (P := fun n => n.id = c.node.id) |>.mp
      ⟨p, h ▸ List.mem_append_left _ hp, n, hn, hid⟩
    -- The marked child of `m` has the id of `c`, so it stands where `c` does.
    obtain ⟨left, right, hchildren⟩ := List.append_of_mem (List.mem_of_find?_eq_some hname)
    obtain rfl := hc.eq_of_id distinct (hin.child hchildren) hid.symm
    exact ⟨m, rfl, hdeclares, hname⟩
  · rintro ⟨p, hp, hdeclares, hname⟩
    have hp : p ∈ c.ancestors := List.mem_of_mem_head? hp
    obtain ⟨q, hq, hmem⟩ := hdeclares.exists_mem_declarers (hc.ancestor hp)
    -- Whichever visit declares the name, its place is above `c`, hence before it.
    have hq : q ∈ c.ancestors := by
      rcases List.mem_cons.mp hq with rfl | hq
      · exact hp
      · exact ancestors_subset hp hq
    have hq : q ∈ before := by simpa using ancestors_visited h hq
    exact ⟨q, hq, c.node, List.mem_filterMap.mpr ⟨p.node, hmem, hname⟩, rfl⟩

end Cursor

/-! ### Summaries -/

section Summarize

variable {t : Tree} {name : String}

theorem summarize_eq (t : Tree) :
    summarize t = (Extraction.visitAll t.source {} (Cursor.outer t.root)).summary := by
  rw [summarize, Cursor.walk_eq_foldl]
  rfl

theorem mem_declared_summarize :
    name ∈ (summarize t).declared ↔ ∃ (c : Cursor) (n : Node), c.In t.root ∧ c.Outside ∧ c.Declares ∧
      c.node.name? = some n ∧ t.text n = name := by
  rw [summarize_eq, Extraction.mem_declared_visitAll, Cursor.exists_names_iff]
  exact or_iff_right Std.ExtTreeSet.not_mem_empty

theorem mem_types_summarize {type : TopLevelType} :
    type ∈ (summarize t).types ↔ ∃ (c : Cursor) (n : Node), c.In t.root ∧ c.Outside ∧
      c.parent?.map Node.kind = some .program ∧ c.node.name? = some n ∧
      typeKind? c.node.kind = some type.kind ∧ t.text n = type.name := by
  rw [summarize_eq, Extraction.mem_types_visitAll]
  refine (or_iff_right Std.ExtTreeSet.not_mem_empty).trans (exists_congr fun c => ?_)
  rw [Cursor.mem_outer_iff, Cursor.topType?_eq_some_iff, and_assoc]
  simp only [exists_and_left]
  rfl

theorem mem_referenced_summarize (distinct : t.root.DistinctIds) :
    name ∈ (summarize t).referenced ↔ ∃ c : Cursor, c.In t.root ∧ c.Outside ∧ c.IsIdentifier ∧
      ¬c.IsName ∧ t.text c.node = name := by
  rw [summarize_eq, Extraction.mem_referenced_visitAll]
  have hmarked : ∀ {before c later}, Cursor.outer t.root = before ++ c :: later →
      (c.node.id ∈ (Extraction.visitAll t.source {} before).marked ↔ c.IsName) := by
    intro before c later h
    rw [Extraction.mem_marked_visitAll, ← Cursor.marked_iff_isName distinct h]
    exact or_iff_right Std.ExtTreeSet.not_mem_empty
  constructor
  · rintro (h | ⟨before, c, later, h, hidentifier, hfree, htext⟩)
    · exact absurd h Std.ExtTreeSet.not_mem_empty
    · have hc : c ∈ Cursor.outer t.root := h ▸ List.mem_append_right _ List.mem_cons_self
      obtain ⟨hin, hout⟩ := Cursor.mem_outer_iff.mp hc
      exact ⟨c, hin, hout, hidentifier, fun hname => hfree ((hmarked h).mpr hname), htext⟩
  · rintro ⟨c, hin, hout, hidentifier, hname, htext⟩
    obtain ⟨before, later, h⟩ := List.append_of_mem (Cursor.mem_outer_iff.mpr ⟨hin, hout⟩)
    exact .inr ⟨before, c, later, h, hidentifier, fun hmem => hname ((hmarked h).mp hmem), htext⟩

/-- No identifier outside package declarations is passed over. -/
theorem mem_summarize_of_identifier (distinct : t.root.DistinctIds) {c : Cursor} (hin : c.In t.root)
    (hout : c.Outside) (hidentifier : c.IsIdentifier) :
    t.text c.node ∈ (summarize t).declared ∨ t.text c.node ∈ (summarize t).referenced := by
  by_cases hname : c.IsName
  · obtain ⟨p, hp, hdeclares, hnode⟩ := hname
    have hp : p ∈ c.ancestors := List.mem_of_mem_head? hp
    exact .inl (mem_declared_summarize.mpr ⟨p, c.node, hin.ancestor hp, hout.ancestor hp, hdeclares, hnode, rfl⟩)
  · exact .inr ((mem_referenced_summarize distinct).mpr ⟨c, hin, hout, hidentifier, hname, rfl⟩)

theorem package_summarize :
    (summarize t).package = (((t.root.preorder fun n => n.kind ≠ .packageDeclaration).filterMap
      (Node.package? t.source)).getLast?).getD "" := by
  rw [summarize_eq, Extraction.visitAll_package, ← Cursor.map_node_trail, List.filterMap_map]
  rfl

/-- The summary of a tree is what its nodes say. The references are the identifiers outside package
    declarations that do not name a declaration; the declared names are those of the declarations outside
    package declarations; the types are the ones among these that stand at the top; and the package is
    that of the last package declaration with a name. -/
theorem mem_summarize_iff (t : Tree) (distinct : t.root.DistinctIds) :
    (∀ name, name ∈ (summarize t).referenced ↔ ∃ c : Cursor, c.In t.root ∧ c.Outside ∧ c.IsIdentifier ∧
      ¬c.IsName ∧ t.text c.node = name) ∧
    (∀ name, name ∈ (summarize t).declared ↔ ∃ (c : Cursor) (n : Node), c.In t.root ∧ c.Outside ∧
      c.Declares ∧ c.node.name? = some n ∧ t.text n = name) ∧
    (∀ type, type ∈ (summarize t).types ↔ ∃ (c : Cursor) (n : Node), c.In t.root ∧ c.Outside ∧
      c.parent?.map Node.kind = some .program ∧ c.node.name? = some n ∧
      typeKind? c.node.kind = some type.kind ∧ t.text n = type.name) ∧
    (summarize t).package = (((t.root.preorder fun n => n.kind ≠ .packageDeclaration).filterMap
      (Node.package? t.source)).getLast?).getD "" :=
  ⟨fun _ => mem_referenced_summarize distinct, fun _ => mem_declared_summarize,
    fun _ => mem_types_summarize, package_summarize⟩

end Summarize

/-- The tree of `class A { B b; }`. -/
def fieldTree : Tree where
  source := "class A { B b; }"
  root :=
    .mk { id := 0, kind := .program } [
      .mk { id := 1, kind := .classDeclaration } [
        .mk { id := 2, kind := .identifier, role := some .name, start := 6, stop := 7 } [],
        .mk { id := 3, kind := .other "class_body" } [
          .mk { id := 4, kind := .fieldDeclaration } [
            .mk { id := 5, kind := .typeIdentifier, start := 10, stop := 11 } [],
            .mk { id := 6, kind := .other "variable_declarator", role := some .declarator } [
              .mk { id := 7, kind := .identifier, role := some .name, start := 12, stop := 13 } []]]]]]

/-- Only the type of the field is a reference; the class and the field are declared. -/
theorem mem_summarize_iff_field :
    fieldTree.root.DistinctIds ∧
    (∀ name, (∃ c : Cursor, c.In fieldTree.root ∧ c.Outside ∧ c.IsIdentifier ∧ ¬c.IsName ∧
      fieldTree.text c.node = name) ↔ name = "B") ∧
    (∀ name, (∃ (c : Cursor) (n : Node), c.In fieldTree.root ∧ c.Outside ∧ c.Declares ∧
      c.node.name? = some n ∧ fieldTree.text n = name) ↔ name = "A" ∨ name = "b") := by
  have distinct : fieldTree.root.DistinctIds := by decide
  obtain ⟨referenced, declared, -, -⟩ := mem_summarize_iff fieldTree distinct
  have hreferenced : (summarize fieldTree).referenced.toList = ["B"] := by cbv
  have hdeclared : (summarize fieldTree).declared.toList = ["A", "b"] := by cbv
  refine ⟨distinct, fun name => ?_, fun name => ?_⟩
  · rw [← referenced, ← Std.ExtTreeSet.mem_toList, hreferenced, List.mem_singleton]
  · rw [← declared, ← Std.ExtTreeSet.mem_toList, hdeclared]
    simp

end Concordance.Java
