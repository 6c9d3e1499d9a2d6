import DScope.Proofs.Closure
import Mathlib.Logic.Relation

namespace DScope

/-!
# Drafted trees

A draft is extended step by step, and a step names only declarations and
statements that are there already. In every tree that comes about this way the
declarations are coherent: a parent stands before its members and is the parent
of what it lists, and a statement belongs to the function of the statement
around it. On such a tree the ways upward from a declaration and from one of its
ancestors end at the same root. The tree is closed as well if the places inside
the kinds of new entries are there by then.
-/

open Draft
open StatementKind hiding block
open List

variable {tree : Tree} {id : NodeId}

/-- The statements that a block lists; none for other statements. -/
def StatementKind.listed : StatementKind → List StatementId
  | .block children => children
  | _ => []

def StatementKind.isMixin : StatementKind → Bool
  | .mixin _ => true
  | _ => false

namespace Statement

/-- The statement with another one listed last, if it is a block. -/
def list (id : StatementId) (statement : Statement) : Statement :=
  match statement.kind with
  | .block children => { statement with kind := .block (children ++ [id]) }
  | _ => statement

theorem list_keepsPlace (id : StatementId) (statement : Statement) :
    (statement.list id).owner = statement.owner ∧
      (statement.list id).parent = statement.parent ∧ (statement.list id).span = statement.span := by
  unfold list
  split <;> exact ⟨rfl, rfl, rfl⟩

theorem list_names (id : StatementId) (statement : Statement) :
    (statement.list id).kind.nodes = statement.kind.nodes ∧
      (statement.list id).kind.statements ⊆ statement.kind.statements ++ [id] := by
  grind [list, StatementKind.nodes, StatementKind.statements]

end Statement

/-- The declarations that another one lists, its parameters only where they count. -/
def Node.given (entry : Node) (withParameters : Bool) : List NodeId :=
  entry.children ++ entry.templateParameters ++ if withParameters then entry.kind.nodes else []

namespace Tree

variable {isWithin : Prop} {id : NodeId} {adjust : Node → Node} {node : Node}

/-- The function whose body holds the statement at a place. -/
def owner? (tree : Tree) (id : StatementId) : Option NodeId :=
  (tree.statement? id).map (·.owner)

/-- The declarations that the one at a place lists as its own. -/
def listed (tree : Tree) (id : NodeId) : List NodeId :=
  ((tree.node? id).map fun node => node.children ++ node.templateParameters).getD []

/-- Parents, members and owners fit together. -/
structure IsCoherent (tree : Tree) : Prop where
  parentPrecedes : ∀ {id parent}, tree.parent? id = some parent → parent.index < id.index
  parentOfListed : ∀ {id child}, child ∈ tree.listed id → tree.parent? child = some id
  ownerIsHeld : ∀ {id owner}, tree.owner? id = some owner → tree.holds owner = true
  ownerOfParent :
    ∀ {id statement parent},
      tree.statement? id = some statement → statement.parent = some parent →
        tree.owner? parent = some statement.owner

theorem exists_of_mem_listed {child : NodeId} (isListed : child ∈ tree.listed id) :
    ∃ entry, tree.node? id = some entry ∧ child ∈ entry.children ++ entry.templateParameters := by
  unfold listed at isListed
  cases isEntry : tree.node? id with
  | none => simp [isEntry] at isListed
  | some entry => exact ⟨entry, rfl, by simpa [isEntry] using isListed⟩

theorem isCoherent_empty : IsCoherent {} where
  parentPrecedes isParent := by simp [parent?, node?] at isParent
  parentOfListed isListed := by simp [listed, node?] at isListed
  ownerIsHeld isOwner := by simp [owner?, statement?] at isOwner
  ownerOfParent isEntry := by simp [statement?] at isEntry

/-- The tree is coherent, and closed as long as each step names only what is there. -/
structure IsSound (isWithin : Prop) (tree : Tree) : Prop where
  isCoherent : tree.IsCoherent
  isClosed : isWithin → tree.IsClosed

/-- A sound tree that came about from another one. -/
structure GrowsTo (isWithin : Prop) (before after : Tree) : Prop where
  isSound : after.IsSound isWithin
  holds : ∀ {id}, before.holds id = true → after.holds id = true
  owner? : ∀ {id owner}, before.owner? id = some owner → after.owner? id = some owner

/-- No statement names the declaration, and no declaration lists it. -/
structure IsUnnamed (tree : Tree) (id : NodeId) : Prop where
  inStatements :
    ∀ {statement entry}, tree.statement? statement = some entry → id ∉ entry.kind.nodes
  inNodes : ∀ {outer entry}, tree.node? outer = some entry → id ∉ entry.given true

theorem holdsStatement_iff {id : StatementId} :
    tree.holdsStatement id = true ↔ ∃ owner, tree.owner? id = some owner := by
  rw [holdsStatement, ← Option.isSome_iff_exists, owner?, Option.isSome_map]

namespace GrowsTo

variable {first second third : Tree}

theorem refl (isSound : tree.IsSound isWithin) : tree.GrowsTo isWithin tree :=
  ⟨isSound, id, id⟩

theorem trans (before : first.GrowsTo isWithin second) (after : second.GrowsTo isWithin third) :
    first.GrowsTo isWithin third :=
  ⟨after.isSound, fun isHeld => after.holds (before.holds isHeld),
    fun isOwner => after.owner? (before.owner? isOwner)⟩

end GrowsTo

/-! ## Adjusting what is there -/

theorem holds_of_parent? {parent : NodeId} (isParent : tree.parent? id = some parent) :
    tree.holds id = true := by
  obtain ⟨entry, isEntry, -⟩ := Option.bind_eq_some_iff.mp isParent
  exact holds_of_node? isEntry

theorem parent?_adjustNode
    (keepsParent : ∀ node, (adjust node).parent = node.parent) (other : NodeId) :
    (tree.adjustNode id adjust).parent? other = tree.parent? other := by
  rw [parent?, parent?, node?_adjustNode]
  split
  · cases tree.node? other with
    | none => rfl
    | some node => exact keepsParent node
  · rfl

/-- A declaration may list more of its own that nothing names yet, and name more statements. -/
structure AdjustsNode (isWithin : Prop) (tree : Tree) (id : NodeId) (adjust : Node → Node)
    (nodes : List NodeId) (statements : List StatementId) : Prop where
  keepsParent : ∀ entry, (adjust entry).parent = entry.parent
  areOwn : ∀ node ∈ nodes, tree.parent? node = some id
  areUnnamed : isWithin → ∀ node ∈ nodes, tree.IsUnnamed node
  has : isWithin → tree.Has [] statements
  gives :
    ∀ entry withParameters,
      (adjust entry).given withParameters ⊆ entry.given withParameters ++ nodes
  names : ∀ entry, (adjust entry).kind.statements ⊆ entry.kind.statements ++ statements

theorem IsSound.growsTo_adjustNode
    {nodes : List NodeId} {statements : List StatementId} (isSound : tree.IsSound isWithin)
    (adjusts : tree.AdjustsNode isWithin id adjust nodes statements) :
    tree.GrowsTo isWithin (tree.adjustNode id adjust) := by
  obtain ⟨keepsParent, areOwn, -, has, gives, names⟩ := adjusts
  have isCoherent := isSound.isCoherent
  have holds {other} (isHeld : tree.holds other = true) :
      (tree.adjustNode id adjust).holds other = true := by
    rwa [holds_iff_lt, Tree.adjustNode, Array.size_modify, ← holds_iff_lt]
  refine ⟨⟨⟨?_, ?_, fun isOwner => holds (isCoherent.ownerIsHeld isOwner),
    isCoherent.ownerOfParent⟩, ?_⟩, holds, fun isOwner => isOwner⟩
  · intro other parent isParent
    rw [parent?_adjustNode keepsParent] at isParent
    exact isCoherent.parentPrecedes isParent
  · intro other child isListed
    rw [parent?_adjustNode keepsParent]
    rw [listed, node?_adjustNode] at isListed
    split at isListed
    next isSame =>
      subst isSame
      cases isEntry : tree.node? id with
      | none => simp [isEntry] at isListed
      | some entry =>
        rw [isEntry] at isListed
        have isGiven := gives entry false (mem_append_left _ isListed)
        rcases mem_append.mp isGiven with isOld | isNew
        · apply isCoherent.parentOfListed
          rw [listed, isEntry]
          simpa [Node.given] using isOld
        · exact areOwn child isNew
    next => exact isCoherent.parentOfListed isListed
  · intro areWithin
    have isClosed := isSound.isClosed areWithin
    refine isClosed.adjustNode fun entry isEntry => ?_
    have hasNodes : tree.Has nodes statements :=
      ⟨fun node isNew => holds_of_parent? (areOwn node isNew), (has areWithin).statements⟩
    refine (isClosed.node isEntry).append hasNodes ?_ (names entry)
    have isSubset := gives entry true
    simp only [Node.given, Node.nodes, keepsParent, append_assoc] at isSubset ⊢
    exact append_subset.mpr ⟨subset_append_left _ _,
      Subset.trans isSubset (subset_append_right _ _)⟩

/-! ## Adding something new -/

theorem node?_addNode_of_holds (isHeld : tree.holds id = true) :
    (tree.addNode node).node? id = tree.node? id := by
  rw [node?_addNode, if_neg (Nat.ne_of_lt (holds_iff_lt.mp isHeld))]

section

variable (isSound : tree.IsSound isWithin) {statement : Statement}
include isSound

theorem IsSound.growsTo_addNode (holdsParent : ∀ parent ∈ node.parent, tree.holds parent = true)
    (isBare : node.children = [] ∧ node.templateParameters = [])
    (has : isWithin → tree.Has node.kind.nodes node.kind.statements) :
    tree.GrowsTo isWithin (tree.addNode node) := by
  have isCoherent := isSound.isCoherent
  have holds : ∀ {id}, tree.holds id = true → (tree.addNode node).holds id = true := by
    intro id isHeld
    rwa [Tree.holds, node?_addNode_of_holds isHeld]
  refine ⟨⟨⟨?_, ?_, fun isOwner => holds (isCoherent.ownerIsHeld isOwner),
    isCoherent.ownerOfParent⟩, ?_⟩, holds, fun isOwner => isOwner⟩
  · intro id parent isParent
    rw [parent?, node?_addNode] at isParent
    split at isParent
    next isNew =>
      rw [isNew]
      exact holds_iff_lt.mp (holdsParent parent isParent)
    next => exact isCoherent.parentPrecedes isParent
  · intro id child isListed
    rw [listed, node?_addNode] at isListed
    split at isListed
    next => simp [isBare] at isListed
    next =>
      have isParent := isCoherent.parentOfListed isListed
      rwa [parent?, node?_addNode_of_holds (holds_of_parent? isParent)]
  · intro areWithin
    refine (isSound.isClosed areWithin).addNode ⟨?_, (has areWithin).statements⟩
    intro named isNamed
    simp only [Node.nodes, isBare, append_nil, mem_append, Option.mem_toList] at isNamed
    exact isNamed.elim (holdsParent named) ((has areWithin).nodes named)

theorem IsSound.growsTo_addStatement (holdsOwner : tree.holds statement.owner = true)
    (ownerOfParent : ∀ parent ∈ statement.parent, tree.owner? parent = some statement.owner)
    (has : isWithin → tree.Has statement.kind.nodes statement.kind.statements) :
    tree.GrowsTo isWithin (tree.addStatement statement) := by
  have isCoherent := isSound.isCoherent
  have sameOwner {id owner} (isOwner : tree.owner? id = some owner) :
      (tree.addStatement statement).owner? id = some owner := by
    obtain ⟨entry, isEntry, -⟩ := Option.map_eq_some_iff.mp isOwner
    have isSmaller : id.index < tree.statements.size := (Array.getElem?_eq_some_iff.mp isEntry).1
    rwa [owner?, statement?_addStatement, if_neg (Nat.ne_of_lt isSmaller)]
  refine ⟨⟨⟨isCoherent.parentPrecedes, isCoherent.parentOfListed, ?_, ?_⟩, ?_⟩,
    fun isHeld => isHeld, sameOwner⟩
  · intro id owner isOwner
    rw [owner?, statement?_addStatement] at isOwner
    split at isOwner
    · cases isOwner
      exact holdsOwner
    · exact isCoherent.ownerIsHeld isOwner
  · intro id entry parent isEntry isParent
    rw [statement?_addStatement] at isEntry
    split at isEntry
    · cases isEntry
      exact sameOwner (ownerOfParent parent isParent)
    · exact sameOwner (isCoherent.ownerOfParent isEntry isParent)
  · intro areWithin
    obtain ⟨hasNodes, hasStatements⟩ := has areWithin
    refine (isSound.isClosed areWithin).addStatement
      ⟨forall_mem_cons.mpr ⟨holdsOwner, hasNodes⟩, fun named isNamed => ?_⟩
    rcases mem_append.mp isNamed with isParent | isPart
    · exact holdsStatement_iff.mpr ⟨_, ownerOfParent named (Option.mem_toList.mp isParent)⟩
    · exact hasStatements named isPart

/-- A statement may name more statements, but keeps its place and what it declares. -/
structure AdjustsStatement (isWithin : Prop) (tree : Tree) (adjust : Statement → Statement)
    (statements : List StatementId) : Prop where
  keepsPlace :
    ∀ entry,
      (adjust entry).owner = entry.owner ∧
        (adjust entry).parent = entry.parent ∧ (adjust entry).span = entry.span
  has : isWithin → tree.Has [] statements
  names :
    ∀ entry,
      (adjust entry).kind.nodes = entry.kind.nodes ∧
        (adjust entry).kind.statements ⊆ entry.kind.statements ++ statements

theorem IsSound.growsTo_adjustStatement
    {id : StatementId} {adjust : Statement → Statement} {statements : List StatementId}
    (adjusts : tree.AdjustsStatement isWithin adjust statements) :
    tree.GrowsTo isWithin (tree.adjustStatement id adjust) := by
  obtain ⟨keepsPlace, has, names⟩ := adjusts
  have isCoherent := isSound.isCoherent
  have sameOwner (other) : (tree.adjustStatement id adjust).owner? other = tree.owner? other := by
    rw [owner?, owner?, statement?_adjustStatement]
    split
    · cases tree.statement? other with
      | none => rfl
      | some entry => exact congrArg some (keepsPlace entry).1
    · rfl
  refine ⟨⟨⟨isCoherent.parentPrecedes, isCoherent.parentOfListed, ?_, ?_⟩, ?_⟩,
    fun isHeld => isHeld, ?_⟩
  · intro other owner isOwner
    rw [sameOwner] at isOwner
    exact isCoherent.ownerIsHeld isOwner
  · intro other statement parent isEntry isParent
    rw [sameOwner]
    rw [statement?_adjustStatement] at isEntry
    split at isEntry
    · obtain ⟨old, isOld, rfl⟩ := Option.map_eq_some_iff.mp isEntry
      rw [(keepsPlace old).1]
      rw [(keepsPlace old).2.1] at isParent
      exact isCoherent.ownerOfParent isOld isParent
    · exact isCoherent.ownerOfParent isEntry isParent
  · intro areWithin
    have isClosed := isSound.isClosed areWithin
    refine isClosed.adjustStatement fun entry isEntry => ?_
    refine (isClosed.statement isEntry).append (has areWithin) ?_ ?_
    · rw [Statement.nodes, (keepsPlace entry).1, (names entry).1]
      exact subset_append_left _ _
    · rw [Statement.statements, Statement.statements, (keepsPlace entry).2.1, append_assoc]
      exact append_subset.mpr ⟨subset_append_left _ _,
        Subset.trans (names entry).2 (subset_append_right _ _)⟩
  · intro other owner isOwner
    rwa [sameOwner]

/-- The tree with a statement added, which its parent lists if that is a block. -/
def appendStatement (tree : Tree) (statement : Statement) : Tree :=
  match statement.parent with
  | none => tree.addStatement statement
  | some block =>
    (tree.addStatement statement).adjustStatement block (.list ⟨tree.statements.size⟩)

theorem IsSound.growsTo_appendStatement (holdsOwner : tree.holds statement.owner = true)
    (ownerOfParent : ∀ parent ∈ statement.parent, tree.owner? parent = some statement.owner)
    (has : isWithin → tree.Has statement.kind.nodes statement.kind.statements) :
    tree.GrowsTo isWithin (tree.appendStatement statement) ∧
      (tree.appendStatement statement).owner? ⟨tree.statements.size⟩ = some statement.owner := by
  have grows := isSound.growsTo_addStatement holdsOwner ownerOfParent has
  have isOwned :
      (tree.addStatement statement).owner? ⟨tree.statements.size⟩ = some statement.owner := by
    rw [owner?, statement?_addStatement, if_pos rfl]
    rfl
  unfold appendStatement
  split
  · exact ⟨grows, isOwned⟩
  next block _ =>
    have growsOn :
        (tree.addStatement statement).GrowsTo isWithin
          ((tree.addStatement statement).adjustStatement block (.list ⟨tree.statements.size⟩)) :=
      grows.isSound.growsTo_adjustStatement ⟨Statement.list_keepsPlace _,
        fun _ => has_statement (holdsStatement_iff.mpr ⟨_, isOwned⟩), Statement.list_names _⟩
    exact ⟨grows.trans growsOn, growsOn.owner? isOwned⟩

end

/-! ## Declarations that nothing names -/

namespace IsUnnamed

theorem of_isClosed (isClosed : tree.IsClosed) (isAbsent : tree.holds id = false) :
    tree.IsUnnamed id where
  inStatements isEntry isNode := by
    have isHeld := (isClosed.statement isEntry).nodes id (mem_cons_of_mem _ isNode)
    rw [isAbsent] at isHeld
    cases isHeld
  inNodes {outer entry} isEntry isGiven := by
    have isNamed : id ∈ entry.nodes := by
      simpa [Node.nodes, Node.given] using Or.inr isGiven
    have isHeld := (isClosed.node isEntry).nodes id isNamed
    rw [isAbsent] at isHeld
    cases isHeld

theorem addNode (isUnnamed : tree.IsUnnamed id) (isNoPart : id ∉ node.given true) :
    (tree.addNode node).IsUnnamed id where
  inStatements := isUnnamed.inStatements
  inNodes {outer entry} isEntry := by
    rw [node?_addNode] at isEntry
    split at isEntry
    · cases isEntry
      exact isNoPart
    · exact isUnnamed.inNodes isEntry

theorem adjustNode {other : NodeId} (isUnnamed : tree.IsUnnamed id)
    (gives : ∀ entry, (adjust entry).given true ⊆ entry.given true) :
    (tree.adjustNode other adjust).IsUnnamed id where
  inStatements := isUnnamed.inStatements
  inNodes {outer entry} isEntry := by
    rw [node?_adjustNode] at isEntry
    split at isEntry
    · obtain ⟨old, isOld, rfl⟩ := Option.map_eq_some_iff.mp isEntry
      exact fun isGiven => isUnnamed.inNodes isOld (gives old isGiven)
    · exact isUnnamed.inNodes isEntry

end IsUnnamed

end Tree

namespace Draft

variable {step : Step}

/--
A statement that may be added to a function names only what is there. If the
function is not free, the statement is no mixin, has no parts yet, and declares
what nothing names.
-/
structure Fits (isWithin : Prop) (isFree : NodeId → Prop) (tree : Tree) (owner : NodeId)
    (kind : StatementKind) : Prop where
  has : isWithin → tree.Has kind.nodes kind.statements
  isPlain :
    ¬isFree owner →
      kind.isMixin = false ∧ kind.listed = [] ∧
        (isWithin → ∀ node ∈ kind.nodes, tree.IsUnnamed node)

/-- One thing is added to a draft or adjusted in it. -/
inductive Edit (isWithin : Prop) (isFree : NodeId → Prop) : Draft → Draft → Prop
  | declare
      {draft : Draft}
      {node : Node}
      (holdsParent : ∀ parent ∈ node.parent, draft.tree.holds parent = true)
      (isBare : node.children = [] ∧ node.templateParameters = [])
      (has : isWithin → draft.tree.Has node.kind.nodes node.kind.statements) :
      Edit isWithin isFree draft ⟨draft.tree.addNode node, draft.nextLine + 1⟩
  | adjust
      {draft : Draft}
      {id : NodeId}
      {change : Node → Node}
      {nodes : List NodeId}
      {statements : List StatementId}
      (adjusts : draft.tree.AdjustsNode isWithin id change nodes statements) :
      Edit isWithin isFree draft ⟨draft.tree.adjustNode id change, draft.nextLine⟩
  | append
      {draft : Draft}
      {statement : Statement}
      (isNext : statement.span = .lines draft.nextLine draft.nextLine)
      (holdsOwner : draft.tree.holds statement.owner = true)
      (ownerOfParent :
        ∀ parent ∈ statement.parent, draft.tree.owner? parent = some statement.owner)
      (fits : Fits isWithin isFree draft.tree statement.owner statement.kind) :
      Edit isWithin isFree draft ⟨draft.tree.appendStatement statement, draft.nextLine + 1⟩
  | adapt
      {draft : Draft}
      {id : StatementId}
      {change : Statement → Statement}
      {statements : List StatementId}
      (adjusts : draft.tree.AdjustsStatement isWithin change statements)
      (keepsKind :
        ∀ entry,
          (change entry).kind.isMixin = entry.kind.isMixin ∧
            (change entry).kind.listed = entry.kind.listed) :
      Edit isWithin isFree draft ⟨draft.tree.adjustStatement id change, draft.nextLine⟩

/-- One draft came about from another by edits. -/
abbrev Grows (isWithin : Prop) (isFree : NodeId → Prop) : Draft → Draft → Prop :=
  Relation.ReflTransGen (Edit isWithin isFree)

variable {α β : Type} {draft middle second third later : Draft} {isWithin : Prop}
  {isFree : NodeId → Prop} {owner : NodeId} {name : String} {block : StatementId} {kind : NodeKind}

theorem bind_run {first : Drafting α} {next : α → Drafting β} {result : β}
    (isRun : (first >>= next).run draft = (result, later)) :
    ∃ value middle, first.run draft = (value, middle) ∧ (next value).run middle = (result, later) :=
  ⟨_, _, rfl, isRun⟩

theorem discard_run {first : Drafting α} (isRun : (discard first).run draft = ((), later)) :
    first.run draft = ((first.run draft).1, later) := by
  cases isRun
  rfl

theorem addStatementOf_run
    (parent : Option StatementId) (owner : NodeId) (kind : StatementKind) (draft : Draft) :
    (addStatementOf parent owner kind).run draft =
      (⟨draft.tree.statements.size⟩,
        ⟨draft.tree.appendStatement
            { kind, parent, owner, span := .lines draft.nextLine draft.nextLine },
          draft.nextLine + 1⟩) := by
  cases parent <;> rfl

theorem Edit.growsTo
    (edit : Edit isWithin isFree draft later) (isSound : draft.tree.IsSound isWithin) :
    draft.tree.GrowsTo isWithin later.tree := by
  cases edit with
  | declare holdsParent isBare has => exact isSound.growsTo_addNode holdsParent isBare has
  | adjust adjusts => exact isSound.growsTo_adjustNode adjusts
  | append _ holdsOwner ownerOfParent fits =>
    exact (isSound.growsTo_appendStatement holdsOwner ownerOfParent fits.has).1
  | adapt adjusts => exact isSound.growsTo_adjustStatement adjusts

theorem growsTo_of_grows
    (grows : Grows isWithin isFree draft later) (isSound : draft.tree.IsSound isWithin) :
    draft.tree.GrowsTo isWithin later.tree := by
  induction grows with
  | refl => exact .refl isSound
  | tail _ edit growsTo => exact growsTo.trans (edit.growsTo growsTo.isSound)

theorem Edit.mark {change : Node → Node}
    (keepsNames :
      ∀ entry,
        (change entry).parent = entry.parent ∧
          (change entry).children = entry.children ∧
          (change entry).templateParameters = entry.templateParameters ∧
          (change entry).kind = entry.kind) :
    Edit isWithin isFree draft ⟨draft.tree.adjustNode id change, draft.nextLine⟩ := by
  have adjusts : draft.tree.AdjustsNode isWithin id change [] [] := by
    refine ⟨fun entry => (keepsNames entry).1, nofun, fun _ => nofun, fun _ => Tree.has_nothing,
      fun entry withParameters => ?_, fun entry => ?_⟩
    · obtain ⟨-, sameChildren, sameParameters, sameKind⟩ := keepsNames entry
      rw [Node.given, sameChildren, sameParameters, sameKind]
      exact subset_append_left _ _
    · rw [(keepsNames entry).2.2.2]
      exact subset_append_left _ _
  exact .adjust adjusts

theorem grows_coverAll (ids : List NodeId) (span : Span) :
    Grows isWithin isFree draft ⟨draft.tree.coverAll ids span, draft.nextLine⟩ ∧
      ∀ id,
        (draft.tree.coverAll ids span).parent? id = draft.tree.parent? id ∧
          (draft.tree.IsUnnamed id → (draft.tree.coverAll ids span).IsUnnamed id) := by
  induction ids generalizing draft with
  | nil => exact ⟨.refl, fun _ => ⟨rfl, fun isUnnamed => isUnnamed⟩⟩
  | cons id rest ih =>
    let cover : Node → Node := fun entry => { entry with span := entry.span.cover span }
    have keepsParent (entry : Node) : (cover entry).parent = entry.parent := rfl
    have keepsGiven (entry : Node) : (cover entry).given true ⊆ entry.given true :=
      fun _ isGiven => isGiven
    have covers : Edit isWithin isFree draft ⟨draft.tree.adjustNode id cover, draft.nextLine⟩ :=
      .mark fun _ => ⟨rfl, rfl, rfl, rfl⟩
    obtain ⟨grows, sameNames⟩ := ih
    refine ⟨.head covers grows, fun other => ⟨?_, fun isUnnamed => ?_⟩⟩
    · exact (sameNames other).1.trans (Tree.parent?_adjustNode keepsParent other)
    · exact (sameNames other).2 (isUnnamed.adjustNode keepsGiven)

/-! ## What the steps do -/

theorem ownerOf_bind_run {next : NodeId → Drafting α} {result : α × Draft}
    (isOwner : draft.tree.owner? block = some owner)
    (isRun : (ownerOf block >>= next).run draft = result) : (next owner).run draft = result := by
  change (next ((draft.tree.owner? block).getD ⟨0⟩)).run draft = result at isRun
  rwa [isOwner] at isRun

section

variable (isSound : draft.tree.IsSound isWithin) {statement : StatementId}
  {result : StatementId × NodeId}
include isSound

theorem addNode_run
    {parent : Option NodeId} (isRun : (addNode parent name kind).run draft = (id, later))
    (holdsParent : ∀ outer ∈ parent, draft.tree.holds outer = true)
    (has : isWithin → draft.tree.Has kind.nodes kind.statements) :
    Grows isWithin isFree draft later ∧
      later.tree.parent? id = parent ∧
      (isWithin → later.tree.IsUnnamed id) ∧
      ∀ other ∉ kind.nodes, draft.tree.IsUnnamed other → later.tree.IsUnnamed other := by
  let span : Span := .lines draft.nextLine draft.nextLine
  let node : Node := { name, kind, parent, span }
  let added : Draft := ⟨draft.tree.addNode node, draft.nextLine + 1⟩
  have declares : Edit isWithin isFree draft added := .declare holdsParent ⟨rfl, rfl⟩ has
  obtain ⟨covers, sameNames⟩ : Grows isWithin isFree added _ ∧ _ :=
    grows_coverAll ((parent.map draft.tree.lineage).getD []) span
  have keepsUnnamed (other) (isNoPart : other ∉ kind.nodes) (isUnnamed : draft.tree.IsUnnamed other) :
      later.tree.IsUnnamed other := by
    cases isRun
    exact (sameNames other).2 (isUnnamed.addNode (by simpa [Node.given, node] using isNoPart))
  have isAbsent : draft.tree.holds id = false := by
    cases isRun
    simp [Tree.holds, Tree.node?]
  refine ⟨?_, ?_, fun areWithin => keepsUnnamed id ?_ ?_, keepsUnnamed⟩
  · cases isRun
    exact .head declares covers
  · cases isRun
    refine (sameNames ⟨draft.tree.nodes.size⟩).1.trans ?_
    rw [Tree.parent?, Tree.node?_addNode, if_pos rfl]
    rfl
  · intro isPart
    rw [(has areWithin).nodes id isPart] at isAbsent
    cases isAbsent
  · exact .of_isClosed (isSound.isClosed areWithin) isAbsent

section

variable (holdsOwner : draft.tree.holds owner = true)
include holdsOwner

theorem addNode_run_of_holds (isRun : (addNode (some owner) name kind).run draft = (id, later))
    (isPlain : kind.nodes = [] ∧ kind.statements = []) :
    Grows isWithin isFree draft later ∧
      later.tree.parent? id = some owner ∧
      (isWithin → later.tree.IsUnnamed id) ∧
      ∀ other, draft.tree.IsUnnamed other → later.tree.IsUnnamed other := by
  have holdsParent : ∀ outer ∈ some owner, draft.tree.holds outer = true := by
    rintro _ ⟨⟩
    exact holdsOwner
  have has (_ : isWithin) : draft.tree.Has kind.nodes kind.statements := by
    rw [isPlain.1, isPlain.2]
    exact Tree.has_nothing
  obtain ⟨grows, isParent, isUnnamed, keepsUnnamed⟩ := addNode_run isSound isRun holdsParent has
  exact ⟨grows, isParent, isUnnamed, fun other => keepsUnnamed other (by simp [isPlain.1])⟩

theorem addListed_run {list : NodeId → Node → Node}
    (isRun :
      (do
        let id ← addNode (some owner) name kind
        adjustNode owner (list id)
        return id).run draft =
        (id, later))
    (has : isWithin → draft.tree.Has kind.nodes kind.statements)
    (keepsParent : ∀ entry, (list id entry).parent = entry.parent)
    (gives :
      ∀ entry withParameters,
        (list id entry).given withParameters ⊆ entry.given withParameters ++ [id])
    (names : ∀ entry, (list id entry).kind.statements ⊆ entry.kind.statements) :
    Grows isWithin isFree draft later := by
  obtain ⟨id, middle, isAdded, isRun⟩ := bind_run isRun
  obtain ⟨_, _, ⟨⟩, ⟨⟩⟩ := bind_run isRun
  obtain ⟨grows, isParent, isUnnamed, -⟩ :=
    addNode_run isSound isAdded (by rintro _ ⟨⟩; exact holdsOwner) has
  exact grows.tail (.adjust ⟨keepsParent, forall_mem_singleton.mpr isParent,
    fun areWithin => forall_mem_singleton.mpr (isUnnamed areWithin),
    fun _ => Tree.has_nothing, gives,
    fun entry => Subset.trans (names entry) (subset_append_left _ _)⟩)

theorem addMember_run (isRun : (addMember owner name kind).run draft = (id, later))
    (has : isWithin → draft.tree.Has kind.nodes kind.statements) :
    Grows isWithin isFree draft later :=
  addListed_run isSound holdsOwner isRun has (fun _ => rfl) (fun _ _ => by grind [Node.given])
    fun _ => Subset.refl _

theorem addTemplateParameter_run {kind : ParameterKind}
    (isRun : (addTemplateParameter owner name kind).run draft = (id, later)) :
    Grows isWithin isFree draft later :=
  addListed_run isSound holdsOwner isRun (fun _ => Tree.has_nothing) (fun _ => rfl)
    (fun _ _ => by grind [Node.given]) fun _ => Subset.refl _

theorem addParameter_run {type : TypeExpr}
    (isRun : (addParameter owner name type).run draft = (id, later)) :
    Grows isWithin isFree draft later :=
  addListed_run isSound holdsOwner isRun (fun _ => Tree.has_nothing) (fun _ => by grind)
    (fun _ _ => by grind [Node.given, NodeKind.nodes]) fun _ => by grind [NodeKind.statements]

theorem addStatementOf_grows {parent : Option StatementId} {kind : StatementKind}
    {id : StatementId} (isRun : (addStatementOf parent owner kind).run draft = (id, later))
    (ownerOfParent : ∀ block ∈ parent, draft.tree.owner? block = some owner)
    (fits : Fits isWithin isFree draft.tree owner kind) :
    Grows isWithin isFree draft later ∧ later.tree.owner? id = some owner := by
  rw [addStatementOf_run] at isRun
  cases isRun
  exact ⟨.single (.append rfl holdsOwner ownerOfParent fits),
    (isSound.growsTo_appendStatement holdsOwner ownerOfParent fits.has).2⟩

theorem addBlock_grows {parent : Option StatementId} {id : StatementId}
    (isRun : (addStatementOf parent owner (.block [])).run draft = (id, later))
    (ownerOfParent : ∀ block ∈ parent, draft.tree.owner? block = some owner) :
    Grows isWithin isFree draft later ∧ later.tree.owner? id = some owner :=
  addStatementOf_grows isSound holdsOwner isRun ownerOfParent
    ⟨fun _ => Tree.has_nothing, fun _ => ⟨rfl, rfl, fun _ => forall_mem_nil _⟩⟩

theorem addBody_run {id : StatementId} (isRun : (addBody owner).run draft = (id, later)) :
    Grows isWithin isFree draft later := by
  obtain ⟨id, middle, isAdded, isRun⟩ := bind_run isRun
  obtain ⟨_, _, ⟨⟩, ⟨⟩⟩ := bind_run isRun
  obtain ⟨grows, isOwned⟩ := addBlock_grows isSound holdsOwner isAdded nofun
  refine grows.tail (.adjust ⟨fun _ => by grind, forall_mem_nil _,
    fun _ => forall_mem_nil _,
    fun _ => Tree.has_statement (Tree.holdsStatement_iff.mpr ⟨_, isOwned⟩), ?_, ?_⟩)
  · grind [Node.given, NodeKind.nodes]
  · grind [NodeKind.statements]

theorem mapM_addNode_run {name : α → String} {kind : α → NodeKind} {items : List α}
    {ids : List NodeId}
    (isRun :
      (items.mapM fun item => addNode (some owner) (name item) (kind item)).run draft =
        (ids, later))
    (isPlain : ∀ item, (kind item).nodes = [] ∧ (kind item).statements = []) :
    Grows isWithin isFree draft later ∧
      (∀ id ∈ ids, later.tree.holds id = true ∧ (isWithin → later.tree.IsUnnamed id)) ∧
      ∀ other, draft.tree.IsUnnamed other → later.tree.IsUnnamed other := by
  induction items generalizing draft ids with
  | nil =>
    cases isRun
    exact ⟨.refl, nofun, fun _ isUnnamed => isUnnamed⟩
  | cons item rest ih =>
    rw [mapM_cons] at isRun
    obtain ⟨first, middle, isAdded, isRun⟩ := bind_run isRun
    obtain ⟨_, _, isRest, ⟨⟩⟩ := bind_run isRun
    obtain ⟨grows, isParent, isUnnamed, keepsUnnamed⟩ : Grows isWithin isFree draft middle ∧ _ :=
      addNode_run_of_holds isSound holdsOwner isAdded (isPlain item)
    have growsTo := growsTo_of_grows grows isSound
    obtain ⟨growsOn, areNew, restKeepsUnnamed⟩ :=
      ih growsTo.isSound (growsTo.holds holdsOwner) isRest
    have isHeld := (growsTo_of_grows growsOn growsTo.isSound).holds (Tree.holds_of_parent? isParent)
    exact ⟨grows.trans growsOn,
      forall_mem_cons.mpr
        ⟨⟨isHeld, fun areWithin => restKeepsUnnamed first (isUnnamed areWithin)⟩, areNew⟩,
      fun other wasUnnamed => restKeepsUnnamed other (keepsUnnamed other wasUnnamed)⟩

end

variable (isOwner : draft.tree.owner? block = some owner)
include isOwner

theorem addStatement_run {id : StatementId} {kind : StatementKind}
    (isRun : (addStatement block kind).run draft = (id, later))
    (fits : Fits isWithin isFree draft.tree owner kind) :
    Grows isWithin isFree draft later ∧ later.tree.owner? id = some owner := by
  replace isRun := ownerOf_bind_run isOwner isRun
  apply addStatementOf_grows isSound (isSound.isCoherent.ownerIsHeld isOwner) isRun _ fits
  rintro _ ⟨⟩
  exact isOwner

theorem addDeclaration_run {statementKind : StatementKind}
    (isNode : (addNode (some owner) name kind).run draft = (id, middle))
    (isStatement : (addStatement block statementKind).run middle = (statement, later))
    (isPlain : kind.nodes = [] ∧ kind.statements = [])
    (names : statementKind.nodes = [id] ∧ statementKind.statements = [])
    (isNoMixin : ¬isFree owner → statementKind.isMixin = false ∧ statementKind.listed = []) :
    Grows isWithin isFree draft later := by
  obtain ⟨grows, isParent, isUnnamed, -⟩ : Grows isWithin isFree draft middle ∧ _ :=
    addNode_run_of_holds isSound (isSound.isCoherent.ownerIsHeld isOwner) isNode isPlain
  have growsTo := growsTo_of_grows grows isSound
  refine grows.trans (addStatement_run growsTo.isSound (growsTo.owner? isOwner) isStatement ?_).1
  refine ⟨fun _ => ?_, fun isBound => ⟨(isNoMixin isBound).1, (isNoMixin isBound).2, ?_⟩⟩
  · rw [names.1, names.2]
    exact Tree.has_node (Tree.holds_of_parent? isParent)
  · rw [names.1]
    exact fun areWithin => forall_mem_singleton.mpr (isUnnamed areWithin)

theorem addLocal_run {type : Option TypeExpr} {initializer : Option Expr}
    (isRun : (addLocal block name type initializer).run draft = (result, later)) :
    Grows isWithin isFree draft later := by
  replace isRun := ownerOf_bind_run isOwner isRun
  obtain ⟨node, second, isNode, isRun⟩ := bind_run isRun
  obtain ⟨statement, third, isStatement, isRun⟩ := bind_run isRun
  have grows : Grows isWithin isFree draft third :=
    addDeclaration_run isSound isOwner isNode isStatement ⟨rfl, rfl⟩ ⟨rfl, rfl⟩ fun _ => ⟨rfl, rfl⟩
  obtain ⟨_, _, ⟨⟩, isRun⟩ := bind_run isRun
  split at isRun
  · obtain ⟨_, _, ⟨⟩, ⟨⟩⟩ := bind_run isRun
    exact grows.tail (.mark fun _ => ⟨rfl, rfl, rfl, rfl⟩)
  · cases isRun
    exact grows

theorem addMixin_run {target : TypeExpr}
    (isRun : (addMixin block target).run draft = (result, later)) (ownerIsFree : isFree owner) :
    Grows isWithin isFree draft later := by
  replace isRun := ownerOf_bind_run isOwner isRun
  obtain ⟨node, second, isNode, isRun⟩ := bind_run isRun
  obtain ⟨statement, third, isStatement, ⟨⟩⟩ := bind_run isRun
  exact addDeclaration_run isSound isOwner isNode isStatement ⟨rfl, rfl⟩ ⟨rfl, rfl⟩
    fun isBound => absurd ownerIsFree isBound

theorem addNested_run {body : StatementId} {kind : StatementKind} {change : Statement → Statement}
    (isStatement : (addStatement block kind).run draft = (statement, second))
    (isBody : (addStatementOf (some statement) owner (.block [])).run second = (body, third))
    (isAdjusted : (adjustStatement statement change).run third = ((), later))
    (fits : Fits isWithin isFree draft.tree owner kind)
    (adjusts : third.tree.Has [] [body] → third.tree.AdjustsStatement isWithin change [body])
    (keepsKind :
        ∀ entry,
          (change entry).kind.isMixin = entry.kind.isMixin ∧
            (change entry).kind.listed = entry.kind.listed) :
    Grows isWithin isFree draft later := by
  obtain ⟨grows, isOwned⟩ := addStatement_run isSound isOwner isStatement fits
  have isSound := (growsTo_of_grows grows isSound).isSound
  obtain ⟨growsOn, isBodyOwned⟩ : Grows isWithin isFree second third ∧ _ :=
    addBlock_grows isSound (isSound.isCoherent.ownerIsHeld isOwned) isBody
      (by rintro _ ⟨⟩; exact isOwned)
  cases isAdjusted
  exact (grows.trans growsOn).tail (.adapt
    (adjusts (Tree.has_statement (Tree.holdsStatement_iff.mpr ⟨_, isBodyOwned⟩))) keepsKind)

theorem addConditional_run {branch : StatementId} {condition : Expr}
    (isRun : (addConditional block condition).run draft = (branch, later)) :
    Grows isWithin isFree draft later := by
  -- Until the branch is there the statement names the first one, which is there as any is.
  have isFirst : draft.tree.holdsStatement ⟨0⟩ = true := by
    have isHeld := Tree.holdsStatement_iff.mpr ⟨owner, isOwner⟩
    rw [Tree.holdsStatement_iff_lt] at isHeld ⊢
    exact Nat.lt_of_le_of_lt (Nat.zero_le _) isHeld
  replace isRun := ownerOf_bind_run isOwner isRun
  obtain ⟨statement, second, isStatement, isRun⟩ := bind_run isRun
  obtain ⟨body, third, isBody, isRun⟩ := bind_run isRun
  obtain ⟨_, _, isAdjusted, ⟨⟩⟩ := bind_run isRun
  apply addNested_run isSound isOwner isStatement isBody isAdjusted
  · exact ⟨fun _ => Tree.has_statement isFirst, fun _ => ⟨rfl, rfl, fun _ => forall_mem_nil _⟩⟩
  · exact fun has => ⟨by grind, fun _ => has, by grind [nodes, statements]⟩
  · grind [isMixin, listed]

theorem addLoop_run {loopVariables : List (String × Option TypeExpr)} {source : LoopSource}
    {isReverse : Bool} {result : StatementId × StatementId × List NodeId}
    (isRun : (addLoop block loopVariables source isReverse).run draft = (result, later)) :
    Grows isWithin isFree draft later := by
  replace isRun := ownerOf_bind_run isOwner isRun
  obtain ⟨nodes, first, areNodes, isRun⟩ := bind_run isRun
  obtain ⟨statement, second, isStatement, isRun⟩ := bind_run isRun
  obtain ⟨body, third, isBody, isRun⟩ := bind_run isRun
  obtain ⟨_, _, isAdjusted, ⟨⟩⟩ := bind_run isRun
  obtain ⟨grows, areNew, -⟩ : Grows isWithin isFree draft first ∧ _ :=
    mapM_addNode_run isSound (isSound.isCoherent.ownerIsHeld isOwner) areNodes fun _ => ⟨rfl, rfl⟩
  have growsTo := growsTo_of_grows grows isSound
  apply grows.trans
  apply addNested_run growsTo.isSound (growsTo.owner? isOwner) isStatement isBody isAdjusted
  · exact ⟨fun _ => ⟨fun node isNode => (areNew node isNode).1, forall_mem_nil _⟩,
      fun _ => ⟨rfl, rfl, fun areWithin node isNode => (areNew node isNode).2 areWithin⟩⟩
  · exact fun has => ⟨by grind, fun _ => has, by grind [nodes, statements]⟩
  · grind [isMixin, listed]

end

/-! ## Whole drafts -/

/-- One step of drafting. -/
inductive Step where
  | module (name : String)
  | member (parent : NodeId) (name : String) (kind : NodeKind)
  | constant (parent : NodeId) (name : String) (initializer : Expr)
  | parameter (method : NodeId) (name : String) (type : TypeExpr)
  | templateParameter (owner : NodeId) (name : String) (kind : ParameterKind)
  | importBinding (importNode : NodeId) (name target : String)
  | markConst (id : NodeId)
  | markStatic (id : NodeId)
  | visibility (id : NodeId) (visibility : Visibility)
  | constraint (id : NodeId) (constraint : Expr)
  | body (method : NodeId)
  | statement (block : StatementId) (kind : StatementKind)
  | localVariable (block : StatementId) (name : String) (type : Option TypeExpr)
      (initializer : Option Expr)
  | mixin (block : StatementId) (target : TypeExpr)
  | conditional (block : StatementId) (condition : Expr)
  | loop (block : StatementId) (loopVariables : List (String × Option TypeExpr))
      (source : LoopSource) (isReverse : Bool)

namespace Step

/-- Whether the place that the step works on is there. -/
def fits (tree : Tree) : Step → Bool
  | module _ => true
  | member place .. | constant place .. | parameter place .. | templateParameter place ..
  | importBinding place .. | markConst place | markStatic place | visibility place _
  | constraint place _ | body place => tree.holds place
  | statement block _ | localVariable block .. | mixin block _ | conditional block _
  | loop block .. => tree.holdsStatement block

/-- What the step does to a draft. -/
def run : Step → Drafting Unit
  | module name => discard (addModule name)
  | member parent name kind => discard (addMember parent name kind)
  | constant parent name initializer => discard (addConstant parent name initializer)
  | parameter method name type => discard (addParameter method name type)
  | templateParameter owner name kind => discard (addTemplateParameter owner name kind)
  | importBinding importNode name target => discard (addImportBinding importNode name target)
  | markConst id => Draft.markConst id
  | markStatic id => Draft.markStatic id
  | visibility id level => setVisibility id level
  | constraint id condition => setConstraint id condition
  | body method => discard (addBody method)
  | statement block kind => discard (addStatement block kind)
  | localVariable block name type initializer => discard (addLocal block name type initializer)
  | mixin block target => discard (addMixin block target)
  | conditional block condition => discard (addConditional block condition)
  | loop block loopVariables source isReverse =>
    discard (addLoop block loopVariables source isReverse)

def nodes : Step → List NodeId
  | member parent _ kind => parent :: kind.nodes
  | constant place .. | parameter place .. | templateParameter place .. | importBinding place ..
  | markConst place | markStatic place | visibility place _ | constraint place _ | body place =>
    [place]
  | statement _ kind => kind.nodes
  | module _ | localVariable .. | mixin .. | conditional .. | loop .. => []

def statements : Step → List StatementId
  | member _ _ kind => kind.statements
  | statement block kind => block :: kind.statements
  | localVariable block .. | mixin block _ | conditional block _ | loop block .. => [block]
  | module _ | constant .. | parameter .. | templateParameter .. | importBinding .. | markConst _
  | markStatic _ | visibility .. | constraint .. | body _ => []

end Step

/-- The draft after a step that fits. -/
def take? (draft : Draft) (step : Step) : Option Draft :=
  if step.fits draft.tree then some (step.run.run draft).2 else none

/-- The draft after steps that fit one after the other. -/
def ofSteps? (steps : List Step) : Option Draft :=
  steps.foldlM take? {}

/-- The draft after a step that names only what is there. -/
def takeWithin? (draft : Draft) (step : Step) : Option Draft :=
  if step.nodes.all draft.tree.holds && step.statements.all draft.tree.holdsStatement then
    some (step.run.run draft).2
  else
    none

theorem fits_of_has (has : draft.tree.Has step.nodes step.statements) :
    step.fits draft.tree = true := by
  cases step with
  | module name => rfl
  | statement | localVariable | mixin | conditional | loop =>
    exact has.statements _ mem_cons_self
  | _ => exact has.nodes _ mem_cons_self

/-- A step adds no mixins and no statements that name anything to functions that are not free. -/
def Step.Leaves (isFree : NodeId → Prop) (tree : Tree) : Step → Prop
  | statement block kind =>
    ∀ owner, tree.owner? block = some owner → isFree owner ∨ kind.nodes = [] ∧ kind.statements = []
  | mixin block _ => ∀ owner, tree.owner? block = some owner → isFree owner
  | _ => True

/-- A draft grows by every step that fits. -/
theorem grows_of_run (isRun : step.run.run draft = ((), later))
    (isSound : draft.tree.IsSound isWithin) (fits : step.fits draft.tree = true)
    (has : isWithin → draft.tree.Has step.nodes step.statements)
    (leaves : step.Leaves isFree draft.tree) : Grows isWithin isFree draft later := by
  cases step with
  | module name => exact (addNode_run isSound (discard_run isRun) nofun has).1
  | member parent name kind =>
    apply addMember_run isSound fits (discard_run isRun)
    exact fun areWithin => ⟨(forall_mem_cons.mp (has areWithin).nodes).2,
      (has areWithin).statements⟩
  | constant parent name initializer =>
    obtain ⟨id, middle, isAdded, isRun⟩ := bind_run (discard_run isRun)
    obtain ⟨_, _, ⟨⟩, ⟨⟩⟩ := bind_run isRun
    apply (addMember_run isSound fits isAdded fun _ => Tree.has_nothing).tail
    exact .mark fun _ => ⟨rfl, rfl, rfl, rfl⟩
  | parameter method name type => exact addParameter_run isSound fits (discard_run isRun)
  | templateParameter owner name kind =>
    exact addTemplateParameter_run isSound fits (discard_run isRun)
  | importBinding importNode name target =>
    obtain ⟨_, _, ⟨⟩, isRun⟩ := bind_run (discard_run isRun)
    exact addMember_run isSound fits isRun fun _ => Tree.has_nothing
  | markConst id | markStatic id | visibility id level | constraint id condition =>
    cases isRun
    exact .single (.mark fun _ => ⟨rfl, rfl, rfl, rfl⟩)
  | body method => exact addBody_run isSound fits (discard_run isRun)
  | statement block kind =>
    obtain ⟨owner, isOwner⟩ := Tree.holdsStatement_iff.mp fits
    refine (addStatement_run isSound isOwner (discard_run isRun)
      ⟨fun areWithin => ?_, fun isBound => ?_⟩).1
    · exact ⟨(has areWithin).nodes, (forall_mem_cons.mp (has areWithin).statements).2⟩
    · have namesNothing := (leaves owner isOwner).resolve_left isBound
      cases kind <;> simp_all [isMixin, listed, nodes, statements]
  | localVariable block name type initializer =>
    obtain ⟨owner, isOwner⟩ := Tree.holdsStatement_iff.mp fits
    exact addLocal_run isSound isOwner (discard_run isRun)
  | mixin block target =>
    obtain ⟨owner, isOwner⟩ := Tree.holdsStatement_iff.mp fits
    exact addMixin_run isSound isOwner (discard_run isRun) (leaves owner isOwner)
  | conditional block condition =>
    obtain ⟨owner, isOwner⟩ := Tree.holdsStatement_iff.mp fits
    exact addConditional_run isSound isOwner (discard_run isRun)
  | loop block loopVariables source isReverse =>
    obtain ⟨owner, isOwner⟩ := Tree.holdsStatement_iff.mp fits
    exact addLoop_run isSound isOwner (discard_run isRun)

theorem isSound_empty : ({} : Draft).tree.IsSound isWithin :=
  ⟨Tree.isCoherent_empty, fun _ => Tree.isClosed_empty⟩

/-- What holds at first and is kept by each step holds after all of them. -/
theorem holds_of_foldlM (holds : Draft → Prop) {take : Draft → Step → Option Draft}
    (keeps : ∀ {draft step later}, take draft step = some later → holds draft → holds later)
    {start : Draft} (atFirst : holds start) {steps : List Step}
    (areTaken : steps.foldlM take start = some draft) : holds draft := by
  induction steps generalizing start with
  | nil =>
    cases areTaken
    exact atFirst
  | cons step rest ih =>
    obtain ⟨middle, isTaken, areTaken⟩ := Option.bind_eq_some_iff.mp areTaken
    exact ih (keeps isTaken atFirst) areTaken

theorem grows_of_foldlM {take : Draft → Step → Option Draft}
    (grows :
      ∀ {draft step later}, take draft step = some later →
        draft.tree.IsSound isWithin → Grows isWithin isFree draft later)
    {steps : List Step} (areTaken : steps.foldlM take {} = some draft) :
    Grows isWithin isFree {} draft := by
  refine holds_of_foldlM (Grows isWithin isFree {} ·) (fun isTaken growsFirst => ?_) .refl areTaken
  exact growsFirst.trans (grows isTaken (growsTo_of_grows growsFirst isSound_empty).isSound)

theorem grows_of_takeWithin? (isTaken : draft.takeWithin? step = some later)
    (isSound : draft.tree.IsSound isWithin) (leaves : step.Leaves isFree draft.tree) :
    Grows isWithin isFree draft later := by
  unfold takeWithin? at isTaken
  split at isTaken
  next isWithin =>
    rw [Bool.and_eq_true, all_eq_true, all_eq_true] at isWithin
    have has : draft.tree.Has step.nodes step.statements := ⟨isWithin.1, isWithin.2⟩
    cases isTaken
    exact grows_of_run rfl isSound (fits_of_has has) (fun _ => has) leaves
  next => cases isTaken

theorem Step.leaves_of_isFree (step : Step) : step.Leaves (fun _ => True) tree := by
  cases step <;> simp [Leaves]

end Draft

namespace Tree

variable {tree : Tree} {steps : List Step} {ancestor : NodeId}

theorem exists_draft_of_isSome {outcome : Option Draft} (isSome : outcome.isSome = true) :
    ∃ draft, outcome = some draft ∧ draft.tree = (outcome.map (·.tree)).getD {} := by
  obtain ⟨draft, rfl⟩ := Option.isSome_iff_exists.mp isSome
  exact ⟨draft, rfl, rfl⟩

/-- The tree was drafted step by step. -/
def IsDrafted (tree : Tree) : Prop :=
  ∃ steps draft, Draft.ofSteps? steps = some draft ∧ draft.tree = tree

/-- The tree that steps draft; empty when one of them does not fit. -/
def ofSteps (steps : List Draft.Step) : Tree :=
  ((Draft.ofSteps? steps).map (·.tree)).getD {}

theorem isDrafted_ofSteps (fit : (ofSteps? steps).isSome = true) :
    (ofSteps steps).IsDrafted := by
  obtain ⟨draft, areTaken, isTree⟩ := exists_draft_of_isSome fit
  exact ⟨steps, draft, areTaken, isTree⟩

theorem IsDrafted.isCoherent (isDrafted : tree.IsDrafted) : tree.IsCoherent := by
  obtain ⟨steps, draft, areTaken, rfl⟩ := isDrafted
  have grows : Grows False (fun _ => True) {} draft := by
    refine grows_of_foldlM (fun {draft step later} isTaken isSound => ?_) areTaken
    unfold take? at isTaken
    split at isTaken
    next fits =>
      cases isTaken
      exact grows_of_run rfl isSound fits nofun step.leaves_of_isFree
    next => cases isTaken
  exact (growsTo_of_grows grows isSound_empty).isSound.isCoherent

/-- The tree was drafted by steps of which each named only what was there by then. -/
def IsDraftedWithin (tree : Tree) : Prop :=
  ∃ steps draft, List.foldlM Draft.takeWithin? {} steps = some draft ∧ draft.tree = tree

/-- The tree that steps draft; empty when one of them names something that is not there. -/
def ofStepsWithin (steps : List Draft.Step) : Tree :=
  ((List.foldlM Draft.takeWithin? {} steps).map (·.tree)).getD {}

theorem isDraftedWithin_ofStepsWithin
    (areWithin : (foldlM takeWithin? {} steps).isSome = true) :
    (ofStepsWithin steps).IsDraftedWithin := by
  obtain ⟨draft, areTaken, isTree⟩ := exists_draft_of_isSome areWithin
  exact ⟨steps, draft, areTaken, isTree⟩

theorem IsDraftedWithin.isClosed (isDrafted : tree.IsDraftedWithin) : tree.IsClosed := by
  obtain ⟨steps, draft, areTaken, rfl⟩ := isDrafted
  have grows : Grows True (fun _ => True) {} draft :=
    grows_of_foldlM (fun isTaken isSound =>
      grows_of_takeWithin? isTaken isSound (Step.leaves_of_isFree _)) areTaken
  exact (growsTo_of_grows grows isSound_empty).isSound.isClosed trivial

/-! ## Ways upward -/

theorem IsCoherent.climb_eq (isCoherent : tree.IsCoherent) {steps others : Nat}
    (isEnough : id.index < steps) (isOtherEnough : id.index < others) :
    tree.climb steps id = tree.climb others id := by
  induction steps generalizing others id with
  | zero => cases isEnough
  | succ steps ih =>
    obtain _ | others := others
    · cases isOtherEnough
    unfold climb
    cases isParent : tree.parent? id with
    | none => rfl
    | some parent =>
      have precedes := isCoherent.parentPrecedes isParent
      have isParentEnough : parent.index < steps := by omega
      have isOtherParentEnough : parent.index < others := by omega
      exact congrArg (id :: ·) (ih isParentEnough isOtherParentEnough)

theorem IsCoherent.lineage_of_parent? (isCoherent : tree.IsCoherent) {parent : NodeId}
    (isParent : tree.parent? id = some parent) : tree.lineage id = id :: tree.lineage parent := by
  have precedes := isCoherent.parentPrecedes isParent
  rw [lineage, climb, isParent]
  exact congrArg (id :: ·) (isCoherent.climb_eq precedes (Nat.lt_succ_self _))

theorem IsCoherent.rootOf_of_parent? (isCoherent : tree.IsCoherent) {parent : NodeId}
    (isParent : tree.parent? id = some parent) : tree.rootOf id = tree.rootOf parent := by
  rw [rootOf, rootOf, isCoherent.lineage_of_parent? isParent, lineage, climb]
  simp [getLast?_cons]

theorem of_mem_lineage (holds : NodeId → Prop) (isHere : holds id)
    (rises : ∀ {child parent}, tree.parent? child = some parent → holds child → holds parent)
    (isAncestor : ancestor ∈ tree.lineage id) : holds ancestor := by
  unfold lineage at isAncestor
  generalize id.index + 1 = steps at isAncestor
  induction steps generalizing id with
  | zero => cases isAncestor
  | succ steps ih =>
    rcases mem_cons.mp isAncestor with rfl | isAbove
    · exact isHere
    · split at isAbove
      next parent isParent => exact ih (rises isParent isHere) isAbove
      next => cases isAbove

theorem IsCoherent.rootOf_of_mem_lineage (isCoherent : tree.IsCoherent)
    (isAncestor : ancestor ∈ tree.lineage id) : tree.rootOf ancestor = tree.rootOf id := by
  refine of_mem_lineage (tree.rootOf · = tree.rootOf id) rfl ?_ isAncestor
  exact fun isParent sameRoot => (isCoherent.rootOf_of_parent? isParent).symm.trans sameRoot

theorem IsCoherent.owner?_of_mem_statementLineage
    (isCoherent : tree.IsCoherent) {id outer : StatementId} {owner : NodeId}
    (isOwner : tree.owner? id = some owner) (isAround : outer ∈ tree.statementLineage id) :
    tree.owner? outer = some owner := by
  unfold statementLineage at isAround
  generalize id.index + 1 = steps at isAround
  induction steps generalizing id with
  | zero => cases isAround
  | succ steps ih =>
    rcases mem_cons.mp isAround with rfl | isAbove
    · exact isOwner
    · split at isAbove
      next parent isParent =>
        obtain ⟨statement, isEntry, isParent⟩ := Option.bind_eq_some_iff.mp isParent
        have isSame : statement.owner = owner := by
          rw [owner?, isEntry] at isOwner
          exact Option.some.inj isOwner
        exact ih (isSame ▸ isCoherent.ownerOfParent isEntry isParent) isAbove
      next => cases isAbove

end Tree

end DScope
