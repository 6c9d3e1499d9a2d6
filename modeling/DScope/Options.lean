namespace DScope

/-!
# Resolution options

Each option switches off one step of resolution. A frame of a query may
override the options in force: whatever it names takes the frame's value, and
everything else is inherited.
-/

/-- A set of switches, each of which disables one step of resolution. -/
structure Options where
  /-- Give aliases back instead of following them. -/
  keepAliases : Bool := false
  /-- Leave out the types of variables and the results of functions. -/
  skipBaseTypes : Bool := false
  /-- Leave out base classes and interfaces. -/
  skipBaseClasses : Bool := false
  /-- Give overloads back without deducing template arguments. -/
  skipDeduction : Bool := false
  /-- Give functions back without their result types. -/
  referencesOnly : Bool := false
deriving Repr, DecidableEq

namespace Options

def none : Options := {}

def zip (combine : Bool → Bool → Bool) (first second : Options) : Options where
  keepAliases := combine first.keepAliases second.keepAliases
  skipBaseTypes := combine first.skipBaseTypes second.skipBaseTypes
  skipBaseClasses := combine first.skipBaseClasses second.skipBaseClasses
  skipDeduction := combine first.skipDeduction second.skipDeduction
  referencesOnly := combine first.referencesOnly second.referencesOnly

def union : Options → Options → Options :=
  zip (· || ·)

def difference : Options → Options → Options :=
  zip fun first second => first && !second

def isEmpty (options : Options) : Bool :=
  options == none

def contains (options other : Options) : Bool :=
  (other.difference options).isEmpty

def names (options : Options) : List String :=
  [(options.keepAliases, "DontResolveAliases"),
    (options.skipBaseTypes, "DontResolveBaseTypes"),
    (options.skipBaseClasses, "DontResolveBaseClasses"),
    (options.skipDeduction, "NoTemplateParameterDeduction"),
    (options.referencesOnly, "ReturnMethodReferencesOnly")].filterMap
      fun (isSet, name) => if isSet then some name else Option.none

def text (options : Options) : String :=
  "ResolutionOptions(" ++ String.intercalate " | " options.names ++ ")"

end Options

/-- The switches that a frame sets and the switches that it clears. -/
structure Overrides where
  enabled : Options := {}
  disabled : Options := {}
deriving Repr, DecidableEq

namespace Overrides

def enable (overrides : Overrides) (options : Options) : Overrides where
  enabled := overrides.enabled.union options
  disabled := overrides.disabled.difference options

def disable (overrides : Overrides) (options : Options) : Overrides where
  enabled := overrides.enabled.difference options
  disabled := overrides.disabled.union options

/-- Puts further overrides on top, which win where both speak. -/
def followedBy (overrides inner : Overrides) : Overrides where
  enabled := (overrides.enabled.difference inner.disabled).union inner.enabled
  disabled := (overrides.disabled.difference inner.enabled).union inner.disabled

/-- The options in force over the given defaults. -/
def apply (overrides : Overrides) (defaults : Options) : Options :=
  (defaults.union overrides.enabled).difference overrides.disabled

def isEmpty (overrides : Overrides) : Bool :=
  overrides.enabled.isEmpty && overrides.disabled.isEmpty

def text (overrides : Overrides) : String :=
  "OptionOverrides \x7b enabled: " ++ overrides.enabled.text ++
    ", disabled: " ++ overrides.disabled.text ++ " \x7d"

end Overrides

end DScope
