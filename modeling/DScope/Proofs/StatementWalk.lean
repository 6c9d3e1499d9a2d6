import DScope.Proofs.Bounds

namespace DScope

/-!
# Walking through a body

The statements below a statement are listed by working off a queue, with nothing to
keep a statement from being met again. Where bodies are drafted statement by
statement into blocks, a statement is a part of exactly the one around it. Then the
walk ends, and it meets each statement below its root once.
-/

open List Statement

/-- Whether a statement of this kind stands for itself, or is a block with nothing in it yet. -/
def StatementKind.isSimple : StatementKind → Bool
  | .block children => children.isEmpty
  | .expression _ | .returning _ => true
  | _ => false

namespace Statement

def isBlock (statement : Statement) : Bool :=
  match statement.kind with
  | .block _ => true
  | _ => false

theorem parts_list (id : StatementId) (statement : Statement) :
    (statement.list id).parts =
      if statement.isBlock then statement.parts ++ [id] else statement.parts := by
  unfold list isBlock parts
  cases isKind : statement.kind <;> simp [isKind]

end Statement

namespace Tree

variable {tree later : Tree} {statement : Statement} {block : StatementId}

/-- The statement around the one at a place. -/
def around? (tree : Tree) (id : StatementId) : Option StatementId :=
  (tree.statement? id).bind (·.parent)

/-- The first statement stands directly inside the second one. -/
def StandsIn (tree : Tree) (inner outer : StatementId) : Prop :=
  tree.around? inner = some outer

def partsAt (tree : Tree) (id : StatementId) : List StatementId :=
  ((tree.statement? id).map (·.parts)).getD []

def isBlockAt (tree : Tree) (id : StatementId) : Bool :=
  (tree.statement? id).any (·.isBlock)

/-- Each statement is a part of the one around it and of no other, and comes after it. -/
structure IsNested (tree : Tree) : Prop where
  isPart_iff : ∀ {outer inner}, inner ∈ tree.partsAt outer ↔ tree.StandsIn inner outer
  precedes : ∀ {inner outer}, tree.StandsIn inner outer → outer.index < inner.index
  areDistinct : ∀ outer, (tree.partsAt outer).Nodup

/-! ## Growing bodies -/

def nextStatement (tree : Tree) : StatementId :=
  ⟨tree.statements.size⟩

theorem isFree_of_le {id : StatementId} (isBeyond : tree.statements.size ≤ id.index) :
    tree.partsAt id = [] ∧ tree.around? id = none ∧ tree.isBlockAt id = false := by
  simp [partsAt, around?, isBlockAt, statement?, isBeyond]

theorem nextStatement_appendStatement :
    (tree.appendStatement statement).nextStatement = ⟨tree.statements.size + 1⟩ := by
  unfold appendStatement
  split <;> simp [nextStatement, addStatement, adjustStatement]

theorem lt_of_isBlockAt (isBlock : tree.isBlockAt block = true) :
    block.index < tree.statements.size := by
  obtain ⟨entry, isEntry, -⟩ := (Option.any_eq_true _ _).mp isBlock
  exact (Array.getElem?_eq_some_iff.mp isEntry).1

theorem isBlockAt_of_statements (isBlock : tree.isBlockAt block = true)
    (same : later.statements = tree.statements) : later.isBlockAt block = true := by
  rwa [isBlockAt, statement?, same]

theorem around?_adjustStatement {change : Statement → Statement}
    (keepsParent : ∀ entry, (change entry).parent = entry.parent) (place id : StatementId) :
    (tree.adjustStatement place change).around? id = tree.around? id := by
  rw [around?, statement?_adjustStatement]
  split
  · simp [around?, Option.bind_map, keepsParent]
  · rfl

section

variable (isOther : statement.parent ≠ some tree.nextStatement) (id : StatementId)
include isOther

theorem statement?_appendStatement :
    (tree.appendStatement statement).statement? id =
      if id = tree.nextStatement then some statement
      else if statement.parent = some id then
        (tree.statement? id).map (.list tree.nextStatement)
      else tree.statement? id := by
  unfold appendStatement
  split
  · rw [statement?_addStatement]
    grind [StatementId, nextStatement]
  · rw [statement?_adjustStatement, statement?_addStatement]
    grind [StatementId, nextStatement]

theorem around?_appendStatement :
    (tree.appendStatement statement).around? id =
      if id = tree.nextStatement then statement.parent else tree.around? id := by
  unfold around?
  rw [statement?_appendStatement isOther]
  cases tree.statement? id <;> grind [list_keepsPlace]

theorem partsAt_appendStatement :
    (tree.appendStatement statement).partsAt id =
      if id = tree.nextStatement then statement.parts
      else if statement.parent = some id ∧ tree.isBlockAt id = true then
        tree.partsAt id ++ [tree.nextStatement]
      else tree.partsAt id := by
  unfold partsAt isBlockAt
  rw [statement?_appendStatement isOther]
  cases tree.statement? id <;> grind [parts_list]

end

namespace IsNested

theorem of_statements (nested : tree.IsNested) (same : later.statements = tree.statements) :
    later.IsNested := by
  obtain ⟨nodes, statements⟩ := tree
  cases same
  exact ⟨nested.isPart_iff, nested.precedes, nested.areDistinct⟩

theorem empty : IsNested {} where
  isPart_iff := by simp [partsAt, StandsIn, around?, statement?]
  precedes := by simp [StandsIn, around?, statement?]
  areDistinct := by simp [partsAt, statement?]

variable (nested : tree.IsNested)
include nested

/-- Nesting is kept where new statements are parts of exactly the one around them. -/
theorem grow (added : StatementId → List StatementId)
    (areParts : ∀ outer, later.partsAt outer = tree.partsAt outer ++ added outer)
    (standsIn_iff :
      ∀ {inner outer}, later.StandsIn inner outer ↔ tree.StandsIn inner outer ∨ inner ∈ added outer)
    (areNew :
      ∀ {inner outer}, inner ∈ added outer →
        tree.statements.size ≤ inner.index ∧ outer.index < inner.index)
    (areDistinct : ∀ outer, (added outer).Nodup) : later.IsNested := by
  constructor
  · intro outer inner
    rw [areParts, mem_append, nested.isPart_iff, standsIn_iff]
  · intro inner outer isInside
    exact (standsIn_iff.mp isInside).elim nested.precedes fun isAdded => (areNew isAdded).2
  · intro outer
    rw [areParts]
    refine (nested.areDistinct outer).append (areDistinct outer) fun inner isPart isAdded => ?_
    have isInside := nested.isPart_iff.mp isPart
    rw [StandsIn, (isFree_of_le (areNew isAdded).1).2.1] at isInside
    cases isInside

theorem append (isWhole : statement.parts = [])
    (isBlock : ∀ {block}, statement.parent = some block → tree.isBlockAt block = true) :
    (tree.appendStatement statement).IsNested := by
  have isFree := isFree_of_le (Nat.le_refl tree.nextStatement.index)
  have isOther : statement.parent ≠ some tree.nextStatement := by grind
  apply nested.grow fun outer =>
    if statement.parent = some outer then [tree.nextStatement] else []
  · intro outer
    rw [partsAt_appendStatement isOther]
    grind
  · intro inner outer
    rw [StandsIn, around?_appendStatement isOther]
    grind [StandsIn]
  · grind [nextStatement, → lt_of_isBlockAt]
  · grind

/-- A statement with a block inside it is added in three steps, of which the last ties the two. -/
theorem appendNested {body : Statement} {change : Statement → Statement}
    (isInside : statement.parent = some block ∧ tree.isBlockAt block = true)
    (isNoBlock : statement.isBlock = false)
    (isBody : body.parent = some tree.nextStatement ∧ body.parts = [])
    (keepsParent : ∀ entry, (change entry).parent = entry.parent)
    (ties : (change statement).parts = [(tree.appendStatement statement).nextStatement]) :
    (((tree.appendStatement statement).appendStatement body).adjustStatement
      tree.nextStatement change).IsNested := by
  have isFree := isFree_of_le (Nat.le_refl tree.nextStatement.index)
  have isOther : statement.parent ≠ some tree.nextStatement := by grind
  have isNext := @nextStatement_appendStatement tree statement
  generalize isMiddle : tree.appendStatement statement = middle at *
  have isBeyond : tree.nextStatement ≠ middle.nextStatement := by grind [nextStatement]
  have isOtherBody : body.parent ≠ some middle.nextStatement := by grind
  have isFreeBody := @isFree_of_le tree middle.nextStatement (by rw [isNext]; exact Nat.le_succ _)
  have isHere : (middle.appendStatement body).statement? tree.nextStatement = some statement := by
    rw [statement?_appendStatement isOtherBody, ← isMiddle, statement?_appendStatement isOther]
    grind [list, isBlock]
  apply nested.grow fun outer =>
    if outer = block then [tree.nextStatement]
    else if outer = tree.nextStatement then [middle.nextStatement] else []
  · intro outer
    have areParts := partsAt_appendStatement isOtherBody outer
    rw [← isMiddle, partsAt_appendStatement isOther] at areParts
    rw [partsAt, statement?_adjustStatement]
    split
    · grind
    · grind [partsAt]
  · intro inner outer
    rw [StandsIn, around?_adjustStatement keepsParent, around?_appendStatement isOtherBody,
      ← isMiddle, around?_appendStatement isOther]
    grind [StandsIn]
  · grind [nextStatement, → lt_of_isBlockAt]
  · grind

end IsNested

end Tree

namespace Draft

variable {draft later : Draft}

theorem statements_coverAll (tree : Tree) (ids : List NodeId) (span : Span) :
    (tree.coverAll ids span).statements = tree.statements := by
  induction ids generalizing tree with
  | nil => rfl
  | cons id rest ih => exact ih _

theorem statements_addNode (parent : Option NodeId) (name : String) (kind : NodeKind)
    (draft : Draft) :
    ((addNode parent name kind).run draft).2.tree.statements = draft.tree.statements :=
  statements_coverAll _ _ _

theorem statements_mapM {α : Type} {add : α → Drafting NodeId}
    (keeps : ∀ item draft, ((add item).run draft).2.tree.statements = draft.tree.statements)
    (items : List α) (draft : Draft) :
    ((items.mapM add).run draft).2.tree.statements = draft.tree.statements := by
  induction items generalizing draft with
  | nil => rfl
  | cons item rest ih =>
    rw [mapM_cons]
    exact (ih _).trans (keeps item draft)

/-- Whether a step adds statements only to blocks, and only whole ones. -/
def Step.isStructured (tree : Tree) : Step → Bool
  | statement block kind => tree.isBlockAt block && kind.isSimple
  | localVariable block .. | mixin block _ | conditional block _ | loop block .. =>
    tree.isBlockAt block
  | _ => true

/-- The draft after a step that fits and keeps bodies structured. -/
def takeStructured? (draft : Draft) (step : Step) : Option Draft :=
  if step.isStructured draft.tree then draft.take? step else none

theorem exists_appended (parent : Option StatementId) (owner : NodeId) (kind : StatementKind)
    (draft : Draft) :
    ∃ added line, added.kind = kind ∧ added.parent = parent ∧
      (addStatementOf parent owner kind).run draft =
        (draft.tree.nextStatement, ⟨draft.tree.appendStatement added, line⟩) :=
  ⟨_, _, rfl, rfl, addStatementOf_run parent owner kind draft⟩

section

variable {block : StatementId} {kind : StatementKind} (nested : draft.tree.IsNested)
  (isBlock : draft.tree.isBlockAt block = true)
include nested isBlock

theorem isNested_addStatement {id : StatementId}
    (isRun : (addStatement block kind).run draft = (id, later)) (isWhole : kind.statements = []) :
    later.tree.IsNested := by
  obtain ⟨_, _, ⟨⟩, isRun⟩ := bind_run isRun
  obtain ⟨added, line, isKind, isParent, isAdded⟩ := exists_appended (some block) _ kind draft
  cases isAdded.symm.trans isRun
  refine nested.append (by rw [parts_eq, isKind, isWhole]) fun {other} isOther => ?_
  cases isParent.symm.trans isOther
  exact isBlock

theorem isNested_addDeclaration {middle : Draft} {parent : Option NodeId} {name : String}
    {declared : NodeKind} {node : NodeId} {id : StatementId}
    (isNode : (addNode parent name declared).run draft = (node, middle))
    (isStatement : (addStatement block kind).run middle = (id, later))
    (isWhole : kind.statements = []) : later.tree.IsNested := by
  have same : middle.tree.statements = draft.tree.statements := by
    cases isNode
    exact statements_addNode _ _ _ _
  exact isNested_addStatement (nested.of_statements same)
    (Tree.isBlockAt_of_statements isBlock same) isStatement isWhole

theorem isNested_addNested {second third : Draft} {owner : NodeId} {statement body : StatementId}
    {change : Statement → Statement}
    (isStatement : (addStatement block kind).run draft = (statement, second))
    (isBody : (addStatementOf (some statement) owner (.block [])).run second = (body, third))
    (isAdjusted : (adjustStatement statement change).run third = ((), later))
    (isNoBlock : ∀ entry : Statement, entry.kind = kind → entry.isBlock = false)
    (keepsParent : ∀ entry, (change entry).parent = entry.parent)
    (ties : ∀ entry : Statement, entry.kind = kind → (change entry).parts = [body]) :
    later.tree.IsNested := by
  obtain ⟨_, _, ⟨⟩, isStatement⟩ := bind_run isStatement
  obtain ⟨added, line, isKind, isParent, isAdded⟩ := exists_appended (some block) _ kind draft
  cases isAdded.symm.trans isStatement
  obtain ⟨inner, _, isInnerKind, isInnerParent, isAdded⟩ :=
    exists_appended (some draft.tree.nextStatement) owner (.block [])
      ⟨draft.tree.appendStatement added, line⟩
  cases isAdded.symm.trans isBody
  cases isAdjusted
  have isEmpty : inner.parts = [] := by rw [parts_eq, isInnerKind]; rfl
  exact nested.appendNested ⟨isParent, isBlock⟩ (isNoBlock added isKind) ⟨isInnerParent, isEmpty⟩
    keepsParent (ties added isKind)

end

theorem isNested_of_run {step : Step} (isRun : step.run.run draft = ((), later))
    (nested : draft.tree.IsNested) (isStructured : step.isStructured draft.tree = true) :
    later.tree.IsNested := by
  cases step with
  | markConst | markStatic | visibility | constraint =>
    cases isRun
    exact nested.of_statements rfl
  | module | member | constant | parameter | templateParameter | importBinding =>
    cases isRun
    exact nested.of_statements (statements_addNode _ _ _ _)
  | body method =>
    cases isRun
    let added : Statement := ⟨.block [], none, method, .lines draft.nextLine draft.nextLine⟩
    have grown := @nested.append _ added rfl fun isInside => by cases isInside
    exact grown.of_statements rfl
  | statement block kind =>
    obtain ⟨isBlock, isSimple⟩ := Bool.and_eq_true_iff.mp isStructured
    refine isNested_addStatement nested isBlock (discard_run isRun) ?_
    cases kind <;> simp_all [StatementKind.isSimple, StatementKind.statements]
  | localVariable block name type initializer =>
    obtain ⟨result, isRun⟩ : ∃ result, _ = (result, later) := ⟨_, discard_run isRun⟩
    obtain ⟨_, _, ⟨⟩, isRun⟩ := bind_run isRun
    obtain ⟨node, second, isNode, isRun⟩ := bind_run isRun
    obtain ⟨statement, third, isStatement, isRun⟩ := bind_run isRun
    have grown := isNested_addDeclaration nested isStructured isNode isStatement rfl
    obtain ⟨_, _, ⟨⟩, isRun⟩ := bind_run isRun
    split at isRun <;> cases isRun <;> exact grown.of_statements rfl
  | mixin block target =>
    obtain ⟨_, _, ⟨⟩, isRun⟩ := bind_run (discard_run isRun)
    obtain ⟨node, second, isNode, isRun⟩ := bind_run isRun
    obtain ⟨statement, third, isStatement, ⟨⟩⟩ := bind_run isRun
    exact isNested_addDeclaration nested isStructured isNode isStatement rfl
  | conditional block condition =>
    obtain ⟨_, _, ⟨⟩, isRun⟩ := bind_run (discard_run isRun)
    obtain ⟨statement, second, isStatement, isRun⟩ := bind_run isRun
    obtain ⟨body, third, isBody, isRun⟩ := bind_run isRun
    obtain ⟨_, _, isAdjusted, ⟨⟩⟩ := bind_run isRun
    exact isNested_addNested nested isStructured isStatement isBody isAdjusted
      (by grind [isBlock]) (by grind) (by grind [parts])
  | loop block loopVariables source isReverse =>
    obtain ⟨_, _, ⟨⟩, isRun⟩ := bind_run (discard_run isRun)
    obtain ⟨nodes, first, areNodes, isRun⟩ := bind_run isRun
    obtain ⟨statement, second, isStatement, isRun⟩ := bind_run isRun
    obtain ⟨body, third, isBody, isRun⟩ := bind_run isRun
    obtain ⟨_, _, isAdjusted, ⟨⟩⟩ := bind_run isRun
    have same : first.tree.statements = draft.tree.statements := by
      rw [← congrArg (·.2.tree.statements) areNodes]
      exact statements_mapM (fun _ _ => statements_addNode _ _ _ _) _ _
    exact isNested_addNested (nested.of_statements same)
      (Tree.isBlockAt_of_statements isStructured same) isStatement isBody isAdjusted
      (by grind [isBlock]) (by grind) (by grind [parts])

end Draft

/-! ## The walk -/

namespace Tree

variable {tree : Tree} {root : StatementId} {queue level listed : List StatementId}

/-- The way upward from the first statement leads to the second one. -/
abbrev IsBelow (tree : Tree) : StatementId → StatementId → Prop :=
  Relation.ReflTransGen tree.StandsIn

/-- A queue is worked off from its front, and the parts of each statement are put at its end. -/
inductive Walks (tree : Tree) : List StatementId → List StatementId → Prop
  | done : Walks tree [] []
  | next {id rest listed} (goesOn : Walks tree (rest ++ tree.partsAt id) listed) :
      Walks tree (id :: rest) (id :: listed)

theorem Walks.through (walks : tree.Walks (queue ++ tree.partsOf level) listed) :
    tree.Walks (level ++ queue) (level ++ listed) := by
  induction level generalizing queue with
  | nil => simpa [partsOf] using walks
  | cons id level ih =>
    rw [partsOf, flatMap_cons, ← append_assoc] at walks
    have goesOn := ih walks
    rw [← append_assoc] at goesOn
    exact .next goesOn

namespace IsNested

variable (nested : tree.IsNested)
include nested

/-- Each level lies further on among the statements, so that some level is empty. -/
theorem walks_levels {depth : Nat}
    (areFar :
      ∀ id ∈ level, id.index < tree.statements.size ∧ tree.statements.size ≤ id.index + depth) :
    tree.Walks level (tree.levels depth level) := by
  induction depth generalizing level with
  | zero =>
    cases level with
    | nil => exact .done
    | cons id rest =>
      have isFar := areFar id mem_cons_self
      omega
  | succ depth ih =>
    cases level with
    | nil => exact .done
    | cons first rest =>
      have isBelow : tree.Walks (tree.partsOf (first :: rest)) _ := ih fun id isPart => by
        obtain ⟨outer, isOuter, isPart⟩ := mem_flatMap.mp isPart
        have isInside := nested.isPart_iff.mp isPart
        have isFar := areFar outer isOuter
        have isLater := nested.precedes isInside
        obtain ⟨entry, isEntry, -⟩ := Option.bind_eq_some_iff.mp isInside
        have isHeld : id.index < tree.statements.size := (Array.getElem?_eq_some_iff.mp isEntry).1
        omega
      have walks := @Walks.through tree [] (first :: rest) _ isBelow
      rw [append_nil] at walks
      exact walks

theorem mem_walk_iff (walks : tree.Walks queue listed) {id : StatementId} :
    id ∈ listed ↔ ∃ root ∈ queue, tree.IsBelow id root := by
  induction walks with
  | done => simp
  | @next first rest listed _ ih =>
    simp only [mem_cons, ih, mem_append, nested.isPart_iff]
    grind

theorem index_le {inner outer : StatementId}
    (isBelow : tree.IsBelow inner outer) : outer.index ≤ inner.index := by
  induction isBelow with
  | refl => exact Nat.le_refl _
  | tail _ isInside ih => exact (Nat.le_of_lt (nested.precedes isInside)).trans ih

/-- Two parts of one statement have nothing below them in common. -/
theorem eq_of_below {id first second outer : StatementId}
    (isFirst : tree.StandsIn first outer) (isSecond : tree.StandsIn second outer)
    (belowFirst : tree.IsBelow id first) (belowSecond : tree.IsBelow id second) :
    first = second := by
  have isUnique : Relator.RightUnique tree.StandsIn := fun _ _ _ isOne isOther =>
    Option.some.inj (isOne.symm.trans isOther)
  have same {one other} (isOne : tree.StandsIn one outer) (isOther : tree.StandsIn other outer)
      (isAbove : tree.IsBelow one other) : one = other := by
    obtain rfl | ⟨next, isInside, isAbove⟩ := Relation.ReflTransGen.cases_head isAbove
    · rfl
    · cases isUnique isInside isOne
      have isLess := nested.precedes isOther
      have isLessOrEqual := nested.index_le isAbove
      omega
  rcases Relation.ReflTransGen.total_of_right_unique isUnique belowFirst belowSecond with
    isAbove | isAbove
  · exact same isFirst isSecond isAbove
  · exact (same isSecond isFirst isAbove).symm

theorem nodup_walk (walks : tree.Walks queue listed)
    (areApart :
      queue.Pairwise fun first second => ∀ id, tree.IsBelow id first → ¬tree.IsBelow id second) :
    listed.Nodup := by
  induction walks with
  | done => exact nodup_nil
  | @next first rest listed goesOn ih =>
    obtain ⟨isApart, areApart⟩ := pairwise_cons.mp areApart
    refine nodup_cons.mpr ⟨fun isListed => ?_, ih ?_⟩
    · obtain ⟨root, isRoot, isBelow⟩ := (nested.mem_walk_iff goesOn).mp isListed
      rcases mem_append.mp isRoot with isRest | isPart
      · exact isApart root isRest first .refl isBelow
      · have isLess := nested.precedes (nested.isPart_iff.mp isPart)
        have isLessOrEqual := nested.index_le isBelow
        omega
    · refine pairwise_append.mpr ⟨areApart, ?_, ?_⟩
      · refine (nested.areDistinct first).imp_of_mem fun isOne isOther areDifferent id below => ?_
        exact fun belowOther => areDifferent (nested.eq_of_below (nested.isPart_iff.mp isOne)
          (nested.isPart_iff.mp isOther) below belowOther)
      · intro root isRoot part isPart id isBelow isBelowPart
        exact isApart root isRoot id (isBelowPart.tail (nested.isPart_iff.mp isPart)) isBelow

theorem around_precedes (walks : tree.Walks queue listed) {before after : List StatementId}
    {id : StatementId} (isSplit : listed = before ++ id :: after) :
    id ∈ queue ∨ ∃ outer ∈ before, tree.StandsIn id outer := by
  induction walks generalizing before with
  | done => simp at isSplit
  | @next first rest listed _ ih =>
    cases before with
    | nil =>
      cases isSplit
      exact .inl mem_cons_self
    | cons other before =>
      cases isSplit
      rcases ih rfl with isQueued | ⟨outer, isOuter, isInside⟩
      · rcases mem_append.mp isQueued with isRest | isPart
        · exact .inl (mem_cons_of_mem _ isRest)
        · exact .inr ⟨first, mem_cons_self, nested.isPart_iff.mp isPart⟩
      · exact .inr ⟨outer, mem_cons_of_mem _ isOuter, isInside⟩

end IsNested

/-- The tree was drafted by steps that add whole statements to blocks. -/
def IsStructured (tree : Tree) : Prop :=
  ∃ steps draft, List.foldlM Draft.takeStructured? {} steps = some draft ∧ draft.tree = tree

theorem IsStructured.isNested (isStructured : tree.IsStructured) : tree.IsNested := by
  obtain ⟨steps, draft, areTaken, rfl⟩ := isStructured
  refine Draft.holds_of_foldlM (·.tree.IsNested) (fun isTaken nested => ?_) .empty areTaken
  unfold Draft.takeStructured? Draft.take? at isTaken
  split at isTaken
  next isStructured =>
    split at isTaken
    · cases isTaken
      exact Draft.isNested_of_run rfl nested isStructured
    · cases isTaken
  next => cases isTaken

/--
The walk from a statement ends. It lists the statement and all statements from which the
way upward leads to it, each once and after the one around it.
-/
theorem statement_walk_is_complete
    (isStructured : tree.IsStructured) (isHeld : tree.holdsStatement root = true) :
    tree.Walks [root] (tree.statementsWithin root) ∧
      (∀ id, id ∈ tree.statementsWithin root ↔ tree.IsBelow id root) ∧
      (tree.statementsWithin root).Nodup ∧
      ∀ before id after, tree.statementsWithin root = before ++ id :: after → id ≠ root →
        ∃ outer ∈ before, tree.StandsIn id outer := by
  have nested := isStructured.isNested
  have isFar : root.index < tree.statements.size := holdsStatement_iff_lt.mp isHeld
  have walks : tree.Walks [root] (tree.statementsWithin root) :=
    nested.walks_levels (forall_mem_singleton.mpr ⟨isFar, Nat.le_add_left _ _⟩)
  refine ⟨walks, fun id => ?_, nested.nodup_walk walks (pairwise_singleton _ _), ?_⟩
  · simpa using nested.mem_walk_iff walks
  · intro before id after isSplit isOther
    exact (nested.around_precedes walks isSplit).resolve_left (by simpa using isOther)

/-- A function whose condition holds a return and a loop. A last return comes after it. -/
def branchingSteps : List Draft.Step :=
  [ .module "branching",
    .member ⟨0⟩ "f" (.method none [] none),
    .body ⟨1⟩,
    .localVariable ⟨0⟩ "x" (some (.basic .int)) none,
    .conditional ⟨0⟩ (.named "x"),
    .statement ⟨3⟩ (.returning none),
    .loop ⟨3⟩ [("i", none)] (.collection (.named "x")) false,
    .statement ⟨6⟩ (.expression (.named "i")),
    .statement ⟨3⟩ (.block []),
    .statement ⟨0⟩ (.returning none) ]

def branching : Tree :=
  ((branchingSteps.foldlM Draft.takeStructured? {}).map (·.tree)).getD {}

/-- The walk lists the block in the loop before the expression in the loop's body. -/
theorem branching_walk_is_complete :
    branching.statementsWithin ⟨3⟩ = [⟨3⟩, ⟨4⟩, ⟨5⟩, ⟨8⟩, ⟨6⟩, ⟨7⟩] ∧
      branching.Walks [⟨3⟩] [⟨3⟩, ⟨4⟩, ⟨5⟩, ⟨8⟩, ⟨6⟩, ⟨7⟩] ∧
      branching.IsBelow ⟨7⟩ ⟨3⟩ ∧ ¬branching.IsBelow ⟨9⟩ ⟨3⟩ := by
  have isTaken : (branchingSteps.foldlM Draft.takeStructured? {}).isSome = true := by
    decide +kernel
  obtain ⟨draft, areTaken, isTree⟩ := exists_draft_of_isSome isTaken
  have areListed : branching.statementsWithin ⟨3⟩ = [⟨3⟩, ⟨4⟩, ⟨5⟩, ⟨8⟩, ⟨6⟩, ⟨7⟩] := by
    decide +kernel
  have isComplete := @statement_walk_is_complete branching ⟨3⟩
    ⟨branchingSteps, draft, areTaken, isTree⟩ (by decide +kernel)
  obtain ⟨walks, areBelow, -⟩ := isComplete
  exact ⟨areListed, walks, (areBelow _).mp (by decide), fun isBelow =>
    absurd ((areBelow _).mpr isBelow) (by decide)⟩

end Tree

end DScope
