import DScope.Lookup
import DScope.Property.Table

namespace DScope.Property

/-!
# Built-in properties as members

A built-in property of a type is a member without a declaration. Its type may
depend on names that the program declares, such as `size_t` and `string`.
-/

open Query

/-- The type that a fixed result type stands for in the program. -/
def FixedType.symbol? : FixedType → Query (Option Symbol)
  | .basic type => return some (.primitive type)
  | .voidPointer => return some (.pointer (some (.primitive .void)))
  | .sizeType => return some (← Lookup.sizeType)
  | .stringType => return some ((← Lookup.first? "string").getD .string)
  | .classDescription => do
      match (← program).object? with
      | none => return none
      | some object =>
        let found ← withFrame { scope := object } (Lookup.first? "TypeInfo_Class")
        return found.join

/-- The type of a property for an owner. -/
def TypeRule.symbol? (owner : Symbol) : TypeRule → Query (Option Symbol)
  | .fixed type => type.symbol?
  | rule => return rule.ofOwner? owner

/-- The built-in property of a symbol with a name, with its constant where it has one. -/
def member? (owner : Symbol) (name : String) : Query (Option Symbol) := do
  let tree ← tree
  match ownerType? tree owner with
  | none => return none
  | some type =>
    match find? (categoryOf tree type) name with
    | none => return none
    | some entry =>
      let base ← entry.type.symbol? type
      let constant := entry.constant.bind (·.constant? (.type owner))
      return some (.ofShape
        (.member ⟨.builtin (entry.declaration type), base, .none, constant⟩))

end DScope.Property
