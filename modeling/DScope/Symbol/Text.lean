import DScope.Symbol.Bindings
import DScope.Tree

namespace DScope

/-!
# Text of symbols

Symbols are written the way a type is written in source text, with the names of
declarations taken from the tree. Unknown parts are written as question marks.
-/

mutual

def Symbol.text (tree : Tree) : Symbol → String
  | ⟨shape, _, none, _⟩ => shape.text tree
  | ⟨shape, _, some modifier, _⟩ => modifier.keyword ++ "(" ++ shape.text tree ++ ")"

/-- The text of a symbol without its modifier. -/
def Shape.text (tree : Tree) : Shape → String
  | .primitive type => type.keyword
  | .pointer target => Symbol.textOrUnknown tree target ++ "*"
  | .array element none => Symbol.textOrUnknown tree element ++ "[]"
  | .array element (some length) =>
    Symbol.textOrUnknown tree element ++ "[" ++ toString length ++ "]"
  | .associative key value =>
    Symbol.textOrUnknown tree value ++ "[" ++ Symbol.textOrUnknown tree key ++ "]"
  | .callable ⟨result, parameters, isFunction⟩ =>
    Symbol.textOrUnknown tree result ++ (if isFunction then " function(" else " delegate(") ++
      commaSeparated (Symbol.texts tree parameters) ++ ")"
  | .aggregate ⟨_, node, _, _, ⟨slots⟩⟩ =>
    match Slot.texts tree slots with
    | [] => tree.nameOf node
    | texts => tree.nameOf node ++ "!(" ++ commaSeparated texts ++ ")"
  | .enumeration node _ | .aliased node _ | .module node => tree.nameOf node
  | .package path => path
  | .member ⟨.node node, _, _, _⟩ => tree.nameOf node
  | .member ⟨.builtin property, _, _, _⟩ => property.name
  | .parameter ⟨_, some base, _⟩ => base.text tree
  | .parameter ⟨parameter, none, _⟩ => tree.nameOf parameter
  | .ambiguous candidates => "<" ++ toString candidates.length ++ " candidates>"
  | .tuple items => "(" ++ commaSeparated (Argument.texts tree items) ++ ")"

def Symbol.textOrUnknown (tree : Tree) : Option Symbol → String
  | none => "?"
  | some symbol => symbol.text tree

def Symbol.texts (tree : Tree) : List Symbol → List String
  | [] => []
  | symbol :: rest => symbol.text tree :: Symbol.texts tree rest

def Slot.texts (tree : Tree) : List Slot → List String
  | [] => []
  | .empty _ :: rest => Slot.texts tree rest
  | .filled ⟨_, _, some value⟩ :: rest => value.text :: Slot.texts tree rest
  | .filled ⟨_, some base, none⟩ :: rest => base.text tree :: Slot.texts tree rest
  | .filled ⟨_, none, none⟩ :: rest => "?" :: Slot.texts tree rest

def Argument.texts (tree : Tree) : List Argument → List String
  | [] => []
  | .type symbol :: rest => symbol.text tree :: Argument.texts tree rest
  | .value value :: rest => value.text :: Argument.texts tree rest
  | .unresolved text :: rest => text :: Argument.texts tree rest

end

end DScope
