import DScope.Proofs.Constants
import Mathlib.Data.String.Basic

namespace DScope

/-!
# Lengths and positions

The length of text counts bytes, and its positions count characters, of which some
take several bytes. An array has as many positions as its length says, and so has
text of narrow characters. Wider text has fewer.
-/

namespace Expr

/-- A literal, or an array of such expressions. -/
inductive IsData : Expr → Prop
  | literal (literal : Literal) : IsData (.literal literal)
  | array {items : List Expr} (areData : ∀ item ∈ items, IsData item) : IsData (.array items)

/-- Whether the expression is text or an array. -/
def isSequence : Expr → Bool
  | .literal (.string _) | .array _ => true
  | _ => false

/-- Whether each item takes one unit of the length, as all but wide characters do. -/
def isNarrow : Expr → Bool
  | .literal (.string text) => text.toList.all (·.utf8Size == 1)
  | _ => true

end Expr

theorem length_le_utf8Len (characters : List Char) :
    characters.length ≤ String.utf8Len characters ∧
      (characters.length = String.utf8Len characters ↔
        characters.all (·.utf8Size == 1) = true) := by
  induction characters with
  | nil => simp
  | cons character rest ih =>
    have isPositive := character.utf8Size_pos
    simp only [List.length_cons, String.utf8Len_cons, List.all_cons, Bool.and_eq_true, beq_iff_eq,
      ← ih.2]
    omega

namespace Constant

variable {program : Program} {evaluator : Evaluator} {state : State} {base : Expr}
  {constant : Value}

namespace FoldsTo

variable {items : List Expr}

theorem mapM
    (each : ∀ item ∈ items, ∃ constant,
      FoldsTo program evaluator state (value item) (.value constant)) :
    ∃ constants : List Value, constants.length = items.length ∧
      FoldsTo program evaluator state (items.mapM value) (.value constants) := by
  induction items with
  | nil => exact ⟨[], rfl, pure []⟩
  | cons item rest ih =>
    obtain ⟨first, isFirst⟩ := each item List.mem_cons_self
    obtain ⟨others, sameLength, areOthers⟩ := ih (List.forall_mem_cons.mp each).2
    refine ⟨first :: others, congrArg (· + 1) sameLength, ?_⟩
    rw [List.mapM_cons]
    exact bind_value isFirst (bind_value areOthers (pure _))

theorem ofLiteral (literal : Literal) :
    FoldsTo program evaluator state (value (.literal literal)) (.value (.ofLiteral literal)) :=
  .ask (pure _)

theorem ofArray {constants : List Value}
    (areConstants : FoldsTo program evaluator state (items.mapM value) (.value constants)) :
    FoldsTo program evaluator state (value (.array items)) (.value (.array constants)) :=
  .ask (bind_value areConstants (pure _))

theorem exists_ofData (isData : base.IsData) :
    ∃ constant, FoldsTo program evaluator state (value base) (.value constant) := by
  induction isData with
  | literal literal => exact ⟨_, ofLiteral literal⟩
  | array _ ih =>
    obtain ⟨constants, -, areConstants⟩ := mapM ih
    exact ⟨.array constants, ofArray areConstants⟩

section

variable (isBase : FoldsTo program evaluator state (value base) (.value constant))
include isBase

theorem ofLength {length : Nat}
    (isLength : Property.constant? program.tree (.value constant) "length" = some (.int length)) :
    FoldsTo program evaluator state (value (.member base "length")) (.value (.int length)) := by
  have isProperty :
      Engine.Yields program evaluator state (propertyOf base "length") (some (.int length)) := by
    refine .bind isBase (.bind (.ofReads .tree) ?_)
    rw [isLength]
    exact .pure _
  exact .ask (bind_value (lift isProperty) (pure _))

theorem ofPosition {number : Int} {type : BasicType} {item : Value}
    (isItem : itemAt? constant (.integer number type) = some item) :
    FoldsTo program evaluator state (value (.index base (.literal (.integer number type))))
      (.value item) := by
  refine .ask (bind_value isBase (bind_value (ofLiteral _) ?_))
  rw [Value.ofLiteral, isItem]
  exact pure item

theorem ofNoPosition {number : Int} {type : BasicType}
    (isMissing : itemAt? constant (.integer number type) = none) :
    FoldsTo program evaluator state (value (.index base (.literal (.integer number type))))
      (.failure (.invalidOperands "[]" constant.text (Value.integer number type).text)) := by
  refine .ask (bind_value isBase (bind_value (ofLiteral _) ?_))
  rw [Value.ofLiteral, isMissing]
  exact throw _

end

end FoldsTo

theorem isSome_itemAt?_array (items : List Value) (number : Int) (type : BasicType) :
    (itemAt? (.array items) (.integer number type)).isSome = true ↔
      0 ≤ number ∧ number < items.length := by
  simp only [itemAt?, Value.integer?]
  grind

theorem isSome_itemAt?_string (text : String) (number : Int) (type : BasicType) :
    (itemAt? (.string text) (.integer number type)).isSome = true ↔
      0 ≤ number ∧ number < text.toList.length := by
  simp only [itemAt?, Value.integer?]
  grind

theorem exists_positions {sequence : Expr} (isData : sequence.IsData)
    (isSequence : sequence.isSequence = true) (program : Program) (evaluator : Evaluator)
    (state : State) :
    ∃ constant length count,
      FoldsTo program evaluator state (value sequence) (.value constant) ∧
        Property.constant? program.tree (.value constant) "length" = some (.int (length : Nat)) ∧
        (∀ number type,
          (itemAt? constant (.integer number type)).isSome = true ↔
            0 ≤ number ∧ number < (count : Nat)) ∧
          count ≤ length ∧ (count = length ↔ sequence.isNarrow = true) := by
  cases isData with
  | array areData =>
    obtain ⟨constants, sameLength, areConstants⟩ :=
      FoldsTo.mapM fun item isItem => FoldsTo.exists_ofData (areData item isItem)
    exact ⟨.array constants, _, _, .ofArray areConstants, rfl, isSome_itemAt?_array constants,
      le_rfl, by simp [Expr.isNarrow]⟩
  | literal literal =>
    cases literal with
    | string text =>
      obtain ⟨isBound, isEqual⟩ := length_le_utf8Len text.toList
      rw [String.utf8Len_toList] at isBound isEqual
      exact ⟨.string text, _, _, .ofLiteral _, rfl, isSome_itemAt?_string text, isBound, isEqual⟩
    | _ => cases isSequence

end Constant

/--
The length of text or an array and the positions that can be read are both known. They
are equally many for arrays and for text of narrow characters, and for other text there
are fewer positions.
-/
theorem length_and_positions_agree_on_narrow_sequences
    (program : Program)
    (state : State)
    {sequence : Expr}
    (isData : sequence.IsData)
    (isSequence : sequence.isSequence = true) :
    ∃ length count : Nat,
      Engine.Settles program .standard (Operation.evaluateValue (.member sequence "length")).query
          state (.ok (.int length)) state ∧
        (∀ (number : Int) (type : BasicType),
          (0 ≤ number ∧ number < count →
              ∃ item,
                Engine.Settles program .standard
                  (Operation.evaluateValue
                    (.index sequence (.literal (.integer number type)))).query
                  state (.ok item) state) ∧
            (¬(0 ≤ number ∧ number < count) →
              ∃ error,
                Engine.Settles program .standard
                  (Operation.evaluateValue
                    (.index sequence (.literal (.integer number type)))).query
                  state (.error error) state)) ∧
        count ≤ length ∧ (count = length ↔ sequence.isNarrow = true) := by
  obtain ⟨constant, length, count, isConstant, isLength, isItem, isBound⟩ :=
    Constant.exists_positions isData isSequence program .standard state
  refine ⟨length, count, isConstant.ofLength isLength, fun number type => ⟨?_, ?_⟩, isBound⟩
  · intro isWithin
    obtain ⟨item, isFound⟩ := Option.isSome_iff_exists.mp ((isItem number type).mpr isWithin)
    exact ⟨item, isConstant.ofPosition isFound⟩
  · intro isOutside
    have isMissing : Constant.itemAt? constant (.integer number type) = none := by
      rw [← Option.not_isSome_iff_eq_none, isItem]
      exact isOutside
    exact ⟨_, isConstant.ofNoPosition isMissing⟩

/-- An array that holds wide text and an array. -/
def Expr.mixedArray : Expr :=
  .array [.literal (.string "né"), .array [.literal (.bool true)]]

/-- The length of the array is two, and the positions zero and one are all that can be read. -/
theorem mixedArray_has_two_positions :
    Expr.mixedArray.IsData ∧ Expr.mixedArray.isSequence = true ∧
      Engine.Settles .inferredVariable .standard
          (Operation.evaluateValue (.member .mixedArray "length")).query (.start ⟨0⟩ none)
          (.ok (.int 2)) (.start ⟨0⟩ none) ∧
        ∀ number : Int,
          (∃ item,
            Engine.Settles .inferredVariable .standard
              (Operation.evaluateValue
                (.index .mixedArray (.literal (.integer number .int)))).query
              (.start ⟨0⟩ none) (.ok item) (.start ⟨0⟩ none)) ↔
            number = 0 ∨ number = 1 := by
  have isData : Expr.mixedArray.IsData :=
    .array (List.forall_mem_cons.mpr ⟨.literal _,
      List.forall_mem_singleton.mpr (.array (List.forall_mem_singleton.mpr (.literal _)))⟩)
  obtain ⟨length, count, isLength, isItem, -, isEqual⟩ :=
    length_and_positions_agree_on_narrow_sequences .inferredVariable (.start ⟨0⟩ none) isData rfl
  have isRun :
      Engine.run .inferredVariable .standard 9
          (Operation.evaluateValue (.member .mixedArray "length")).query (.start ⟨0⟩ none) =
        .ok (.ok (.int 2), .start ⟨0⟩ none) := by
    rfl
  have isTwo := Engine.Settles.ofRun (Operation.query_orderly _ _) isRun
  obtain rfl : count = 2 := by
    have sameLength := isLength.unique isTwo
    simp only [Except.ok.injEq, Value.int, Value.integer.injEq] at sameLength
    rw [isEqual.mpr rfl]
    omega
  refine ⟨isData, rfl, isTwo, fun number => ⟨?_, fun isPosition => ?_⟩⟩
  · rintro ⟨item, isRead⟩
    by_contra isNone
    obtain ⟨error, isUnread⟩ := (isItem number .int).2 (by omega)
    cases isRead.unique isUnread
  · exact (isItem number .int).1 (by omega)

/-- A character of two bytes makes a length of two, and there is nothing at position one. -/
theorem wide_text_has_fewer_positions_than_its_length :
    Engine.Settles .inferredVariable .standard
        (Operation.evaluateValue (.member (.literal (.string "é")) "length")).query
        (.start ⟨0⟩ none) (.ok (.int 2)) (.start ⟨0⟩ none) ∧
      ∃ error,
        Engine.Settles .inferredVariable .standard
          (Operation.evaluateValue
            (.index (.literal (.string "é")) (.literal (.integer 1 .int)))).query
          (.start ⟨0⟩ none) (.error error) (.start ⟨0⟩ none) :=
  ⟨Constant.FoldsTo.ofLength (.ofLiteral _) rfl,
    _, Constant.FoldsTo.ofNoPosition (.ofLiteral _) rfl⟩

end DScope
