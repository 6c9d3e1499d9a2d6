import DScope.Proofs.Drafting

namespace DScope

/-!
# Function bodies in drafts

The statements of a draft stand in the order in which they were added, since each
is given the next line. A function body is plain if its statements are added one at
a time and none of them is a mixin. Then every block lists its statements in that
order, and no declaration around the function lists what they declare: nothing else
names a declaration when the statement that declares it is added.
-/

namespace Draft

variable {change : Statement → Statement}

/-- A statement of the function is no mixin, and lists statements of the function in order. -/
def IsPlain (method : NodeId) (statements : Array Statement) (statement : Statement) : Prop :=
  statement.owner = method →
    statement.kind.isMixin = false ∧
      statement.kind.listed.Pairwise (·.index < ·.index) ∧
      ∀ child ∈ statement.kind.listed, (statements[child.index]?).map (·.owner) = some method

/-- The statements stand on lines in their order, and those of the function are plain. -/
structure IsLaidOut (method : NodeId) (nextLine : Nat) (statements : Array Statement) : Prop where
  inOrder :
    ∀ {first second : Nat} {earlier later : Statement}, statements[first]? = some earlier →
      statements[second]? = some later → first < second →
      earlier.span.start.line < later.span.start.line
  entry :
    ∀ {index : Nat} {statement : Statement}, statements[index]? = some statement →
      statement.span.start.line < nextLine ∧ IsPlain method statements statement

/-- The body of the function is plain, and no declaration lists what it declares. -/
structure HasPlainBody (method : NodeId) (draft : Draft) : Prop where
  isLaidOut : IsLaidOut method draft.nextLine draft.tree.statements
  isUnlisted :
    ∀ {id statement}, draft.tree.statement? id = some statement → statement.owner = method →
      ∀ node ∈ statement.kind.nodes, ∀ {outer entry}, draft.tree.node? outer = some entry →
      node ∉ entry.given (outer.index ≤ method.index)

variable {method : NodeId} {draft later : Draft}

section Table

variable {nextLine : Nat} {statements : Array Statement} {statement entry : Statement}

theorem lt_of_owner {index : Nat} (isOwned : (statements[index]?).map (·.owner) = some method) :
    index < statements.size := by
  obtain ⟨entry, isEntry, -⟩ := Option.map_eq_some_iff.mp isOwned
  exact (Array.getElem?_eq_some_iff.mp isEntry).1

theorem IsPlain.push (isPlain : IsPlain method statements entry) :
    IsPlain method (statements.push statement) entry := by
  intro isOwner
  obtain ⟨isNoMixin, areOrdered, areOwned⟩ := isPlain isOwner
  refine ⟨isNoMixin, areOrdered, fun child isListed => ?_⟩
  have isOwned := areOwned child isListed
  rwa [Array.getElem?_push, if_neg (Nat.ne_of_lt (lt_of_owner isOwned))]

theorem IsPlain.list {children : List StatementId} (isPlain : IsPlain method statements entry)
    (isBlock : entry.kind = .block children) (sameOwner : statement.owner = entry.owner) :
    IsPlain method (statements.push statement)
      { entry with kind := .block (children ++ [⟨statements.size⟩]) } := by
  intro isOwner
  obtain ⟨-, areOrdered, areOwned⟩ := isPlain.push isOwner
  have areSmaller := (isPlain isOwner).2.2
  rw [isBlock] at areOrdered areOwned areSmaller
  refine ⟨rfl, List.pairwise_append.mpr ⟨areOrdered, List.pairwise_singleton _ _, ?_⟩, ?_⟩
  · rintro child isListed _ isNew
    cases List.mem_singleton.mp isNew
    exact lt_of_owner (areSmaller child isListed)
  · intro child isListed
    rcases List.mem_append.mp isListed with isOld | isNew
    · exact areOwned child isOld
    · cases List.mem_singleton.mp isNew
      rw [Array.getElem?_push_size]
      exact congrArg some (sameOwner.trans isOwner)

namespace IsLaidOut

section

variable (isLaidOut : IsLaidOut method nextLine statements)
include isLaidOut

theorem mono {last : Nat} (isLater : nextLine ≤ last) : IsLaidOut method last statements where
  inOrder := isLaidOut.inOrder
  entry isEntry :=
    ⟨Nat.lt_of_lt_of_le (isLaidOut.entry isEntry).1 isLater, (isLaidOut.entry isEntry).2⟩

theorem push (isNext : statement.span.start.line = nextLine)
    (isPlain :
      statement.owner = method → statement.kind.isMixin = false ∧ statement.kind.listed = []) :
    IsLaidOut method (nextLine + 1) (statements.push statement) := by
  constructor
  · intro first second earlier later isFirst isSecond isBefore
    rw [Array.getElem?_push] at isFirst isSecond
    split at isFirst <;> split at isSecond
    · omega
    · have isSmaller := (Array.getElem?_eq_some_iff.mp isSecond).1
      omega
    · cases isSecond
      rw [isNext]
      exact (isLaidOut.entry isFirst).1
    · exact isLaidOut.inOrder isFirst isSecond isBefore
  · intro index entry isEntry
    rw [Array.getElem?_push] at isEntry
    split at isEntry
    · cases isEntry
      refine ⟨by omega, fun isOwner => ?_⟩
      simp [isPlain isOwner]
    · obtain ⟨isBefore, isPlain⟩ := isLaidOut.entry isEntry
      exact ⟨Nat.lt_succ_of_lt isBefore, isPlain.push⟩

theorem modify {place : Nat}
    (keeps : ∀ entry, (change entry).owner = entry.owner ∧ (change entry).span = entry.span)
    (isPlain :
      ∀ {entry}, statements[place]? = some entry → IsPlain method statements (change entry)) :
    IsLaidOut method nextLine (statements.modify place change) := by
  have sameOwner (index : Nat) :
      ((statements.modify place change)[index]?).map (·.owner) =
        (statements[index]?).map (·.owner) := by
    rw [Array.getElem?_modify]
    split
    · simp [Function.comp_def, (keeps _).1]
    · rfl
  have old {index : Nat} {entry : Statement}
      (isEntry : (statements.modify place change)[index]? = some entry) :
      ∃ old,
        statements[index]? = some old ∧ entry.span = old.span ∧
          IsPlain method statements entry := by
    rw [Array.getElem?_modify] at isEntry
    split at isEntry
    next isPlace =>
      subst isPlace
      obtain ⟨old, isOld, rfl⟩ := Option.map_eq_some_iff.mp isEntry
      exact ⟨old, isOld, (keeps old).2, isPlain isOld⟩
    next => exact ⟨entry, isEntry, rfl, (isLaidOut.entry isEntry).2⟩
  constructor
  · intro first second earlier later isFirst isSecond isBefore
    obtain ⟨_, isOldFirst, sameFirst, -⟩ := old isFirst
    obtain ⟨_, isOldSecond, sameSecond, -⟩ := old isSecond
    rw [sameFirst, sameSecond]
    exact isLaidOut.inOrder isOldFirst isOldSecond isBefore
  · intro index entry isEntry
    obtain ⟨old, isOld, sameSpan, isPlain⟩ := old isEntry
    rw [sameSpan]
    refine ⟨(isLaidOut.entry isOld).1, fun isOwner => ?_⟩
    simpa only [sameOwner] using isPlain isOwner

end

end IsLaidOut

end Table

namespace HasPlainBody

theorem adjustStatement {id : StatementId} (hasBody : draft.HasPlainBody method)
    (keeps :
      ∀ entry,
        (change entry).owner = entry.owner ∧
          (change entry).span = entry.span ∧ (change entry).kind.nodes = entry.kind.nodes)
    (isPlain :
      ∀ {entry}, draft.tree.statement? id = some entry →
        IsPlain method draft.tree.statements (change entry)) :
    HasPlainBody method ⟨draft.tree.adjustStatement id change, draft.nextLine⟩ := by
  refine ⟨hasBody.isLaidOut.modify (fun entry => ⟨(keeps entry).1, (keeps entry).2.1⟩) isPlain, ?_⟩
  intro other statement isEntry isOwner node isNode
  rw [Tree.statement?_adjustStatement] at isEntry
  split at isEntry
  · obtain ⟨old, isOld, rfl⟩ := Option.map_eq_some_iff.mp isEntry
    rw [(keeps old).1] at isOwner
    rw [(keeps old).2.2] at isNode
    exact hasBody.isUnlisted isOld isOwner node isNode
  · exact hasBody.isUnlisted isEntry isOwner node isNode

/-- A new statement is listed last in its block. -/
theorem appendStatement {statement : Statement} (hasBody : draft.HasPlainBody method)
    (isNext : statement.span = .lines draft.nextLine draft.nextLine)
    (ownerOfParent : ∀ parent ∈ statement.parent, draft.tree.owner? parent = some statement.owner)
    (fits : Fits True (· ≠ method) draft.tree statement.owner statement.kind) :
    HasPlainBody method ⟨draft.tree.appendStatement statement, draft.nextLine + 1⟩ := by
  have isPlain (isOwner : statement.owner = method) := fits.isPlain fun isOther => isOther isOwner
  let added : Draft := ⟨draft.tree.addStatement statement, draft.nextLine + 1⟩
  have addedHasBody : added.HasPlainBody method := by
    constructor
    · exact hasBody.isLaidOut.push (congrArg (·.start.line) isNext) fun isOwner =>
        ⟨(isPlain isOwner).1, (isPlain isOwner).2.1⟩
    · intro other entry isEntry isOwner node isNode outer outerEntry isOuter isGiven
      rw [Tree.statement?_addStatement] at isEntry
      split at isEntry
      · cases isEntry
        apply ((isPlain isOwner).2.2 trivial node isNode).inNodes isOuter
        grind [Node.given]
      · exact hasBody.isUnlisted isEntry isOwner node isNode isOuter isGiven
  unfold Tree.appendStatement
  split
  next => exact addedHasBody
  next block isParent =>
    refine addedHasBody.adjustStatement (fun entry => ?_) fun {entry} isEntry => ?_
    · obtain ⟨keepsOwner, -, keepsSpan⟩ := entry.list_keepsPlace ⟨draft.tree.statements.size⟩
      exact ⟨keepsOwner, keepsSpan, (entry.list_names _).1⟩
    · have isOwned := ownerOfParent block isParent
      have isOld : draft.tree.statement? block = some entry := by
        rwa [Tree.statement?_addStatement, if_neg (Nat.ne_of_lt (lt_of_owner isOwned))] at isEntry
      rw [Tree.owner?, isOld] at isOwned
      have isPlainEntry := (hasBody.isLaidOut.entry isOld).2
      unfold Statement.list
      split
      next isBlock => exact isPlainEntry.list isBlock (Option.some.inj isOwned).symm
      next => exact isPlainEntry.push

/-- Every edit that leaves the body of the function plain. -/
theorem edit (hasBody : draft.HasPlainBody method) (isSound : draft.tree.IsSound True)
    (edit : Edit True (· ≠ method) draft later) : later.HasPlainBody method := by
  cases edit with
  | declare _ isBare _ =>
    refine ⟨hasBody.isLaidOut.mono (Nat.le_succ _), ?_⟩
    intro id statement isEntry isOwner node isNode outer entry isOuter isGiven
    rw [Tree.node?_addNode] at isOuter
    split at isOuter
    next isNew =>
      -- A new declaration lists nothing, and it is no function around this one.
      have isOwned : draft.tree.owner? id = some method :=
        Option.map_eq_some_iff.mpr ⟨statement, isEntry, isOwner⟩
      have isSmaller := Tree.holds_iff_lt.mp (isSound.isCoherent.ownerIsHeld isOwned)
      cases isOuter
      simp [Node.given, isBare, show ¬outer.index ≤ method.index by omega] at isGiven
    next => exact hasBody.isUnlisted isEntry isOwner node isNode isOuter isGiven
  | adjust adjusts =>
    refine ⟨hasBody.isLaidOut, ?_⟩
    intro id statement isEntry isOwner node isNode outer entry isOuter isGiven
    rw [Tree.node?_adjustNode] at isOuter
    split at isOuter
    · obtain ⟨old, isOld, rfl⟩ := Option.map_eq_some_iff.mp isOuter
      rcases List.mem_append.mp (adjusts.gives old _ isGiven) with wasGiven | isNew
      · exact hasBody.isUnlisted isEntry isOwner node isNode isOld wasGiven
      · exact (adjusts.areUnnamed trivial node isNew).inStatements isEntry isNode
    · exact hasBody.isUnlisted isEntry isOwner node isNode isOuter isGiven
  | append isNext _ ownerOfParent fits => exact hasBody.appendStatement isNext ownerOfParent fits
  | adapt adjusts keepsKind =>
    refine hasBody.adjustStatement (fun entry => ?_) fun {entry} isEntry => ?_
    · obtain ⟨keepsOwner, -, keepsSpan⟩ := adjusts.keepsPlace entry
      exact ⟨keepsOwner, keepsSpan, (adjusts.names entry).1⟩
    · have isPlain := (hasBody.isLaidOut.entry isEntry).2
      rwa [IsPlain, (adjusts.keepsPlace entry).1, (keepsKind entry).1, (keepsKind entry).2]

end HasPlainBody

/-! ## Steps -/

/-- Whether a step leaves the body of a function plain. -/
def Step.keepsPlain (method : NodeId) (tree : Tree) : Step → Bool
  | statement block kind =>
    tree.owner? block != some method || kind.nodes.isEmpty && kind.statements.isEmpty
  | mixin block _ => tree.owner? block != some method
  | _ => true

/-- The draft after a step that names only what is there and leaves the body plain. -/
def takePlain? (method : NodeId) (draft : Draft) (step : Step) : Option Draft :=
  if step.keepsPlain method draft.tree then draft.takeWithin? step else none

theorem hasPlainBody_of_foldlM
    {steps : List Step} (areTaken : steps.foldlM (takePlain? method) {} = some draft) :
    draft.tree.IsSound True ∧ draft.HasPlainBody method := by
  have grows : Grows True (· ≠ method) {} draft := by
    refine grows_of_foldlM (fun {draft step later} isTaken isSound => ?_) areTaken
    unfold takePlain? at isTaken
    split at isTaken
    next keepsPlain =>
      refine grows_of_takeWithin? isTaken isSound ?_
      cases step <;> simp_all [Step.keepsPlain, Step.Leaves] <;> grind
    next => cases isTaken
  clear areTaken
  induction grows with
  | refl => exact ⟨isSound_empty, ⟨⟨by simp, by simp⟩, by simp [Tree.statement?]⟩⟩
  | tail _ edit hasBody => exact ⟨(edit.growsTo hasBody.1).isSound, hasBody.2.edit hasBody.1 edit⟩

end Draft

/-- The tree was drafted by steps that name only what is there and leave the body plain. -/
def Tree.HasPlainBody (tree : Tree) (method : NodeId) : Prop :=
  ∃ steps draft, List.foldlM (Draft.takePlain? method) {} steps = some draft ∧ draft.tree = tree

end DScope
