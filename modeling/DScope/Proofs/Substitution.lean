import DScope.Proofs.Settling

namespace DScope

/-!
# Names in written types

A written type stands for a symbol as soon as its names do, and it yields that
symbol. Writing other types in the place of the names comes to the same as expanding
the template parameters in the symbol, if the names stand for parameters that are
bound to what the other types stand for.
-/

namespace TypeExpr

/-- Built from basic types and the given names by pointers, arrays, keys and modifiers. -/
inductive IsBuiltFrom (names : List String) : TypeExpr → Prop where
  | basic (type : BasicType) : IsBuiltFrom names (.basic type)
  | named {name : String} : name ∈ names → IsBuiltFrom names (.named name)
  | pointer {target : TypeExpr} : IsBuiltFrom names target → IsBuiltFrom names (.pointer target)
  | dynamicArray {element : TypeExpr} :
      IsBuiltFrom names element → IsBuiltFrom names (.dynamicArray element)
  | keyedArray {element key : TypeExpr} :
      IsBuiltFrom names element →
      IsBuiltFrom names key →
      IsBuiltFrom names (.keyedArray element key)
  | modified {modifier : Modifier} {inner : TypeExpr} :
      IsBuiltFrom names inner → IsBuiltFrom names (.modified modifier inner)

/-- The symbol that a written type stands for, given what its names mean. -/
inductive Denotes (meaning : String → Symbol → Prop) : TypeExpr → Symbol → Prop where
  | basic (type : BasicType) : Denotes meaning (.basic type) (.primitive type)
  | named {name : String} {symbol : Symbol} :
      meaning name symbol → Denotes meaning (.named name) symbol
  | pointer {target : TypeExpr} {symbol : Symbol} :
      Denotes meaning target symbol → Denotes meaning (.pointer target) (.pointer (some symbol))
  | dynamicArray {element : TypeExpr} {symbol : Symbol} :
      Denotes meaning element symbol →
      Denotes meaning (.dynamicArray element) (.dynamicArray (some symbol))
  | keyedArray {element key : TypeExpr} {value index : Symbol} :
      Denotes meaning element value →
      Denotes meaning key index →
      Denotes meaning (.keyedArray element key) (.associative (some index) (some value))
  | modified {modifier : Modifier} {inner : TypeExpr} {symbol : Symbol} :
      Denotes meaning inner symbol →
      Denotes meaning (.modified modifier inner) (symbol.withModifier modifier)

/-- The type with its names replaced, below pointers, arrays, keys and modifiers. -/
def substitute (replacement : String → TypeExpr) : TypeExpr → TypeExpr
  | .named name => replacement name
  | .pointer target => .pointer (target.substitute replacement)
  | .dynamicArray element => .dynamicArray (element.substitute replacement)
  | .keyedArray element key =>
    .keyedArray (element.substitute replacement) (key.substitute replacement)
  | .modified modifier inner => .modified modifier (inner.substitute replacement)
  | type => type

end TypeExpr

namespace Symbol

/-- The symbol with a modifier, if there is one. -/
def modifiedBy (symbol : Symbol) : Option Modifier → Symbol
  | some modifier => symbol.withModifier modifier
  | none => symbol

mutual

/--
The symbol with each bound template parameter replaced by what it is bound to,
below pointers, arrays and keys. A modifier of the parameter symbol overrides that
of what takes its place.
-/
def expanded : Symbol → Symbol
  | ⟨.parameter ⟨_, some base, _⟩, _, modifier, _⟩ => base.expanded.modifiedBy modifier
  | ⟨.pointer target, origin, modifier, tags⟩ =>
    ⟨.pointer (expandedOption target), origin, modifier, tags⟩
  | ⟨.array element length, origin, modifier, tags⟩ =>
    ⟨.array (expandedOption element) length, origin, modifier, tags⟩
  | ⟨.associative key value, origin, modifier, tags⟩ =>
    ⟨.associative (expandedOption key) (expandedOption value), origin, modifier, tags⟩
  | symbol => symbol
termination_by structural symbol => symbol

/-- What an optional symbol is expanded to. -/
def expandedOption : Option Symbol → Option Symbol
  | none => none
  | some symbol => some symbol.expanded
termination_by structural symbol => symbol

end

theorem expanded_withModifier (symbol : Symbol) (modifier : Modifier) :
    (symbol.withModifier modifier).expanded = symbol.expanded.withModifier modifier := by
  obtain ⟨shape, origin, own, tags⟩ := symbol
  cases shape with
  | parameter binding =>
    obtain ⟨parameter, base, value⟩ := binding
    cases base with
    | none => rfl
    | some base => cases own <;> rfl
  | _ => rfl

theorem expanded_parameter (parameter : NodeId) (base : Symbol) :
    (Symbol.parameter (.ofType parameter base)).expanded = base.expanded :=
  rfl

end Symbol

namespace TypeExpr

/-- Under which no name means anything. -/
def noMeaning (_ : String) (_ : Symbol) : Prop :=
  False

variable {meaning other : String → Symbol → Prop} {type : TypeExpr} {symbol : Symbol}

theorem IsBuiltFrom.denotes {names : List String} (isBuilt : type.IsBuiltFrom names)
    (means : ∀ name ∈ names, ∃ symbol, meaning name symbol) :
    ∃ symbol, type.Denotes meaning symbol := by
  induction isBuilt with
  | basic type => exact ⟨_, .basic type⟩
  | named isName =>
    obtain ⟨symbol, isMeaning⟩ := means _ isName
    exact ⟨symbol, .named isMeaning⟩
  | pointer _ ih =>
    obtain ⟨symbol, denotes⟩ := ih
    exact ⟨_, .pointer denotes⟩
  | dynamicArray _ ih =>
    obtain ⟨symbol, denotes⟩ := ih
    exact ⟨_, .dynamicArray denotes⟩
  | keyedArray _ _ elementHypothesis keyHypothesis =>
    obtain ⟨value, denotesValue⟩ := elementHypothesis
    obtain ⟨index, denotesIndex⟩ := keyHypothesis
    exact ⟨_, .keyedArray denotesValue denotesIndex⟩
  | modified _ ih =>
    obtain ⟨symbol, denotes⟩ := ih
    exact ⟨_, .modified denotes⟩

namespace Denotes

theorem substitute {replacement : String → TypeExpr} (denotes : type.Denotes meaning symbol)
    (replaces :
      ∀ name symbol, meaning name symbol → (replacement name).Denotes other symbol.expanded) :
    (type.substitute replacement).Denotes other symbol.expanded := by
  induction denotes with
  | basic type => exact .basic type
  | named isMeaning => exact replaces _ _ isMeaning
  | pointer _ ih => exact .pointer ih
  | dynamicArray _ ih => exact .dynamicArray ih
  | keyedArray _ _ elementHypothesis keyHypothesis =>
    exact .keyedArray elementHypothesis keyHypothesis
  | modified _ ih =>
    rw [Symbol.expanded_withModifier]
    exact .modified ih

theorem expanded_eq (denotes : type.Denotes noMeaning symbol) : symbol.expanded = symbol := by
  induction denotes with
  | basic type => rfl
  | named isMeaning => exact isMeaning.elim
  | pointer _ ih =>
    simp [Symbol.pointer, Symbol.ofShape, Symbol.expanded, Symbol.expandedOption, ih]
  | dynamicArray _ ih =>
    simp [Symbol.dynamicArray, Symbol.ofShape, Symbol.expanded, Symbol.expandedOption, ih]
  | keyedArray _ _ elementHypothesis keyHypothesis =>
    simp [Symbol.associative, Symbol.ofShape, Symbol.expanded, Symbol.expandedOption,
      elementHypothesis, keyHypothesis]
  | modified _ ih => rw [Symbol.expanded_withModifier, ih]

theorem isNoDeclaration (denotes : type.Denotes noMeaning symbol) :
    symbol.isMember = false ∧ symbol.parameter? = none := by
  induction denotes with
  | named isMeaning => exact isMeaning.elim
  | modified _ ih => exact ih
  | _ => exact ⟨rfl, rfl⟩

variable {program : Program} {evaluator : Evaluator} {state : State}

theorem isLength_eq_false {tree : Tree} (denotes : type.Denotes meaning symbol)
    (areTypes : ∀ name symbol, meaning name symbol → Resolution.isLength tree symbol = false) :
    Resolution.isLength tree symbol = false := by
  induction denotes with
  | named isMeaning => exact areTypes _ _ isMeaning
  | modified _ ih => exact ih
  | _ => rfl

theorem yields (denotes : type.Denotes meaning symbol) (isRunning : state.isCancelled = false)
    (areTypes :
      ∀ name symbol, meaning name symbol → Resolution.isLength program.tree symbol = false)
    (names :
      ∀ name symbol, meaning name symbol →
        Engine.Yields program evaluator state (Resolution.ofName name) [symbol]) :
    Engine.Yields program evaluator state (Query.resolve type) [symbol] := by
  have polls : Engine.Yields program evaluator state Query.isCancelled false :=
    isRunning ▸ .ofReads .isCancelled
  induction denotes with
  | basic type => exact .ask (.bind polls (.pure _))
  | named isMeaning => exact .ask (.bind polls (names _ _ isMeaning))
  | pointer _ ih =>
    exact .ask (.bind polls (.bind ih (.pure _)))
  | dynamicArray _ ih =>
    exact .ask (.bind polls (.bind ih (.pure _)))
  | @keyedArray _ _ value index _ denotesIndex elementHypothesis keyHypothesis =>
    refine .ask (.bind polls (.bind elementHypothesis (.bind keyHypothesis
      (.bind (.ofReads .tree) ?_))))
    have isKey : ([index].head?.any (Resolution.isLength program.tree)) = false :=
      denotesIndex.isLength_eq_false areTypes
    rw [isKey]
    exact .pure _
  | modified _ ih =>
    exact .ask (.bind polls (.bind ih (.pure _)))

theorem yields_of_noMeaning
    (denotes : type.Denotes noMeaning symbol) (isRunning : state.isCancelled = false) :
    Engine.Yields program evaluator state (Query.resolve type) [symbol] :=
  denotes.yields isRunning (fun _ _ isMeaning => isMeaning.elim) fun _ _ isMeaning =>
    isMeaning.elim

end Denotes

end TypeExpr

/-- Each name replaced by the argument at its place. -/
def TypeExpr.replacement (names : List String) (arguments : List TypeExpr) (name : String) :
    TypeExpr :=
  ((names.zip arguments).lookup name).getD (.named name)

theorem TypeExpr.replacement_eq
    {tree : Tree} {parameters : List NodeId} {arguments : List TypeExpr} {parameter : NodeId}
    {argument : TypeExpr} (areDistinct : (parameters.map tree.nameOf).Nodup)
    (isPair : (parameter, argument) ∈ parameters.zip arguments) :
    replacement (parameters.map tree.nameOf) arguments (tree.nameOf parameter) = argument := by
  induction parameters generalizing arguments with
  | nil => simp at isPair
  | cons first rest ih =>
    cases arguments with
    | nil => simp at isPair
    | cons firstArgument restArguments =>
      obtain ⟨isOther, areDistinct⟩ := List.nodup_cons.mp areDistinct
      rw [List.zip_cons_cons, List.mem_cons] at isPair
      rcases isPair with isFirst | isLater
      · cases isFirst
        simp [replacement]
      · have isOtherName : tree.nameOf parameter ≠ tree.nameOf first := fun isEqual =>
          isOther (isEqual ▸ List.mem_map_of_mem (List.of_mem_zip isLater).1)
        have isReplaced := ih areDistinct isLater
        simpa [replacement, List.lookup_cons, beq_false_of_ne isOtherName] using isReplaced

end DScope
