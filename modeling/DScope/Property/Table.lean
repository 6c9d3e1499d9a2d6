import DScope.Property.Constant

namespace DScope.Property

/-!
# The table of built-in properties

Each property has a name, a description, and rules for its type, its constant
and its parameters. Some properties belong to every type and the others to the
types of one category.
-/

/-- Result types that are the same for every owner. -/
inductive FixedType where
  | basic (type : BasicType)
  | sizeType
  | stringType
  | classDescription
  | voidPointer
deriving Repr, DecidableEq

/-- The rules by which a property gets its type. -/
inductive TypeRule where
  | fixed (type : FixedType)
  | owner
  | immutableCopy
  | elementPointer
  | keys
  | values
  | keyIteration
  | valueIteration
  | value
  | functionPointer
deriving Repr, DecidableEq

/-- The rules by which a property gets its parameters. -/
inductive ParameterRule where
  | keyAndDefault
  | key
deriving Repr, DecidableEq

/-- A built-in property and its rules. -/
structure Entry where
  name : String
  description : String
  type : TypeRule
  requiresInstance : Bool := false
  constant : Option ConstantRule := none
  parameters : Option ParameterRule := none
deriving Repr, DecidableEq

def element? (symbol : Symbol) : Option Symbol :=
  match symbol.shape with
  | .array element _ => element
  | _ => none

def key? (symbol : Symbol) : Option Symbol :=
  match symbol.shape with
  | .associative key _ => key
  | _ => none

def value? (symbol : Symbol) : Option Symbol :=
  match symbol.shape with
  | .associative _ value => value
  | _ => none

/-- A delegate without parameters. -/
def iteration (result : Symbol) : Symbol :=
  .ofShape (.callable ⟨some result, [], false⟩)

/-- The type that a rule gives for an owner; types fixed for all owners apart. -/
def TypeRule.ofOwner? (rule : TypeRule) (owner : Symbol) : Option Symbol :=
  match rule with
  | .fixed _ => none
  | .owner => some owner
  | .immutableCopy =>
    (element? owner).map fun element =>
      .dynamicArray (some (element.withModifier .immutable))
  | .elementPointer => some (.pointer (element? owner))
  | .keys => some (.dynamicArray (key? owner))
  | .values => some (.dynamicArray (value? owner))
  | .keyIteration => some (iteration (.dynamicArray (key? owner)))
  | .valueIteration => some (iteration (.dynamicArray (value? owner)))
  | .value => value? owner
  | .functionPointer =>
    match owner.shape with
    | .callable callable => some (.ofShape (.callable { callable with isFunction := true }))
    | _ => none

def ParameterRule.ofOwner (rule : ParameterRule) (owner : Symbol) : List PropertyParameter :=
  match rule with
  | .keyAndDefault => [⟨"key", key? owner, false⟩, ⟨"defaultValue", value? owner, true⟩]
  | .key => [⟨"key", key? owner, false⟩]

def Entry.declaration (entry : Entry) (owner : Symbol) : BuiltinProperty where
  name := entry.name
  description := entry.description
  requiresInstance := entry.requiresInstance
  parameters := entry.parameters.map (·.ofOwner owner)

def generalEntries : List Entry :=
  [{ name := "init"
     description := "A type's or variable's static initializer expression"
     type := .owner },
    { name := "sizeof"
      description := "Size of a type or variable in bytes"
      type := .fixed (.basic .uint)
      constant := some .size },
    { name := "alignof"
      description := "Variable offset"
      type := .fixed (.basic .uint)
      requiresInstance := true },
    { name := "mangleof"
      description := "String representing the ‘mangled’ representation of the type"
      type := .fixed .stringType },
    { name := "stringof"
      description := "String representing the source representation of the type"
      type := .fixed .stringType }]

def integralEntries : List Entry :=
  [{ name := "max"
     description := "Maximum value"
     type := .owner
     constant := some .greatest },
    { name := "min"
      description := "Minimum value"
      type := .owner
      constant := some .least }]

def floatingEntries : List Entry :=
  [{ name := "infinity"
     description := "Infinity value"
     type := .owner
     constant := some .infinity },
    { name := "nan"
      description := "Not-a-Number value"
      type := .owner
      constant := some .undefined },
    { name := "dig"
      description := "Number of decimal digits of precision"
      type := .fixed (.basic .int) },
    { name := "epsilon"
      description := "Smallest increment to the value 1"
      type := .owner },
    { name := "mant_dig"
      description := "Number of bits in mantissa"
      type := .fixed (.basic .int) },
    { name := "max_10_exp"
      description := "Maximum int value such that 10^max_10_exp is representable"
      type := .fixed (.basic .int) },
    { name := "max_exp"
      description := "Maximum int value such that 2^max_exp-1 is representable"
      type := .fixed (.basic .int) },
    { name := "min_10_exp"
      description := "Minimum int value such that 10^min_10_exp is representable"
      type := .fixed (.basic .int) },
    { name := "min_exp"
      description := "Minimum int value such that 2^min_exp-1 is representable"
      type := .fixed (.basic .int) },
    { name := "min_normal"
      description := "Smallest representable normalized value"
      type := .owner },
    { name := "re"
      description := "Real part"
      type := .owner
      requiresInstance := true },
    { name := "im"
      description := "Imaginary part"
      type := .owner
      requiresInstance := true }]

/-- The properties that arrays of both kinds have besides their length. -/
def copyingEntries : List Entry :=
  [{ name := "dup"
     description :=
       "Create a dynamic array of the same size and copy the contents of the array into it."
     type := .owner
     requiresInstance := true },
    { name := "idup"
      description := "Creates immutable copy of the array"
      type := .immutableCopy
      requiresInstance := true },
    { name := "reverse"
      description := "Reverses in place the order of the elements in the array. Returns the array."
      type := .owner
      requiresInstance := true },
    { name := "sort"
      description := "Sorts in place the order of the elements in the array. Returns the array."
      type := .owner
      requiresInstance := true },
    { name := "ptr"
      description := "Returns pointer to the array"
      type := .elementPointer
      requiresInstance := true }]

def arrayEntries : List Entry :=
  { name := "length"
    description := "Array length"
    type := .fixed (.basic .int)
    requiresInstance := true
    constant := some .length } :: copyingEntries

/-- The properties that only associative arrays have. -/
def keyedEntries : List Entry :=
  [{ name := "keys"
     description :=
       "Returns dynamic array, the elements of which are the keys in the associative array."
     type := .keys
     requiresInstance := true },
    { name := "values"
      description :=
        "Returns dynamic array, the elements of which are the values in the associative array."
      type := .values
      requiresInstance := true },
    { name := "rehash"
      description :=
        "Reorganizes the associative array in place so that lookups are more efficient."
      type := .owner
      requiresInstance := true },
    { name := "byKey"
      description :=
        "Returns a delegate suitable for use as an aggregate to a foreach statement " ++
          "iterating over the keys."
      type := .keyIteration
      requiresInstance := true },
    { name := "byValue"
      description :=
        "Returns a delegate suitable for use as an aggregate to a foreach statement " ++
          "iterating over the values."
      type := .valueIteration
      requiresInstance := true },
    { name := "get"
      description :=
        "Looks up key; if it exists returns corresponding value else evaluates and returns " ++
          "defaultValue."
      type := .value
      requiresInstance := true
      parameters := some .keyAndDefault },
    { name := "remove"
      description := "Removes key from the associative array; returns whether it existed."
      type := .fixed (.basic .bool)
      requiresInstance := true
      parameters := some .key }]

def associativeEntries : List Entry :=
  { name := "length"
    description :=
      "Returns number of values in the associative array. Unlike for dynamic arrays, it is " ++
        "read-only."
    type := .fixed .sizeType
    requiresInstance := true } :: (copyingEntries ++ keyedEntries)

def tupleEntries : List Entry :=
  [{ name := "length"
     description := "Returns number of values in the type tuple."
     type := .fixed .sizeType
     requiresInstance := true
     constant := some .count }]

def callableEntries : List Entry :=
  [{ name := "ptr"
     description :=
       "The .ptr property of a delegate will return the frame pointer value as a void*."
     type := .fixed .voidPointer
     requiresInstance := true },
    { name := "funcptr"
      description :=
        "The .funcptr property of a delegate will return the function pointer value as a " ++
          "function type."
      type := .functionPointer
      requiresInstance := true }]

def aggregateEntries : List Entry :=
  [{ name := "classinfo"
     description := "Information about the dynamic type of the class"
     type := .fixed .classDescription
     requiresInstance := true }]

/-- The properties of a category's types besides those of every type. -/
def Category.entries : Category → List Entry
  | .integral => integralEntries
  | .floating => floatingEntries
  | .aggregate => aggregateEntries
  | .array => arrayEntries
  | .associative => associativeEntries
  | .callable => callableEntries
  | .tuple => tupleEntries

/-- All properties of types of a category, which may be missing. -/
def entries (category : Option Category) : List Entry :=
  generalEntries ++ (category.map Category.entries).getD []

def find? (category : Option Category) (name : String) : Option Entry :=
  (entries category).find? (·.name == name)

/-- The declarations of all properties of a symbol, or of those that need no instance. -/
def list (tree : Tree) (symbol : Symbol) (staticOnly : Bool) : List BuiltinProperty :=
  match ownerType? tree symbol with
  | none => []
  | some owner =>
    ((entries (categoryOf tree owner)).filter
      fun entry => !staticOnly || !entry.requiresInstance).map (·.declaration owner)

/-- The constant of a property, when it has one for this owner. -/
def constant? (tree : Tree) (owner : Owner) (name : String) : Option Value := do
  let entry ← find? (owner.category? tree) name
  let rule ← entry.constant
  rule.constant? owner

end DScope.Property
