import DScope.Proofs.Settling

namespace DScope

/-!
# Members below pointers and wrappers

Member access takes off the wrappers around a symbol (members, aliases and bound
template parameters) and then the pointers. It reaches an aggregate through any
number of both as long as every wrapper stands outside every pointer; a wrapper
below a pointer hides the declared members of what it wraps.
-/

open Operation MemberAccess

namespace Symbol

/-- What a member, an alias or a bound template parameter stands for. -/
def wrapped? (symbol : Symbol) : Option Symbol :=
  match symbol.shape with
  | .member member => member.base
  | .aliased _ base => base
  | .parameter binding => binding.base
  | _ => none

/-- What a pointer points to. -/
def pointed? (symbol : Symbol) : Option Symbol :=
  match symbol.shape with
  | .pointer target => target
  | _ => none

/-- Pointers and wrappers around a symbol, in any order. -/
inductive Nests (inner : Symbol) : Symbol → Prop where
  | here : Nests inner inner
  | pointer {target outer : Symbol} :
      outer.pointed? = some target → Nests inner target → Nests inner outer
  | wrapper {base outer : Symbol} :
      outer.wrapped? = some base → Nests inner base → Nests inner outer

/-- Only pointers around a symbol. -/
inductive PointsTo (inner : Symbol) : Symbol → Prop where
  | here : PointsTo inner inner
  | pointer {target outer : Symbol} :
      outer.pointed? = some target → PointsTo inner target → PointsTo inner outer

/-- Pointers around a symbol, and wrappers around these only. -/
inductive LiesOpenIn (inner : Symbol) : Symbol → Prop where
  | pointers {outer : Symbol} : PointsTo inner outer → LiesOpenIn inner outer
  | wrapper {base outer : Symbol} :
      outer.wrapped? = some base → LiesOpenIn inner base → LiesOpenIn inner outer

variable {inner outer base target : Symbol}

theorem strip_of_wrapped (isWrapper : outer.wrapped? = some base) : outer.strip = base.strip := by
  obtain ⟨shape, origin, modifier, tags⟩ := outer
  cases shape with
  | member member =>
    obtain ⟨definition, _, bindings, constant⟩ := member
    cases isWrapper
    rfl
  | aliased node _ =>
    cases isWrapper
    rfl
  | parameter binding =>
    obtain ⟨parameter, _, value⟩ := binding
    cases isWrapper
    rfl
  | _ => cases isWrapper

theorem pointee_of_wrapped (isWrapper : outer.wrapped? = some base) : outer.pointee = outer := by
  obtain ⟨shape, origin, modifier, tags⟩ := outer
  cases shape with
  | pointer target => cases isWrapper
  | _ => rfl

theorem isAggregate_of_wrapped (isWrapper : outer.wrapped? = some base) :
    outer.isAggregate = false := by
  obtain ⟨shape, origin, modifier, tags⟩ := outer
  cases shape with
  | aggregate aggregate => cases isWrapper
  | _ => rfl

theorem strip_of_pointed (isPointer : outer.pointed? = some target) : outer.strip = some outer := by
  obtain ⟨shape, origin, modifier, tags⟩ := outer
  cases shape <;> cases isPointer
  rfl

theorem pointee_of_pointed (isPointer : outer.pointed? = some target) :
    outer.pointee = target.pointee := by
  obtain ⟨shape, origin, modifier, tags⟩ := outer
  cases shape <;> cases isPointer
  rfl

section

variable (isAggregate : inner.isAggregate = true)
include isAggregate

theorem strip_of_isAggregate : inner.strip = some inner := by
  obtain ⟨shape, origin, modifier, tags⟩ := inner
  cases shape <;> cases isAggregate
  rfl

theorem pointee_of_isAggregate : inner.pointee = inner := by
  obtain ⟨shape, origin, modifier, tags⟩ := inner
  cases shape <;> cases isAggregate
  rfl

theorem PointsTo.pointee_eq (points : PointsTo inner outer) : outer.pointee = inner := by
  induction points with
  | here => exact pointee_of_isAggregate isAggregate
  | pointer isPointer _ ih =>
    rw [pointee_of_pointed isPointer]
    exact ih

theorem LiesOpenIn.reaches (isOpen : LiesOpenIn inner outer) :
    ∃ type, outer.strip = some type ∧ type.pointee = inner := by
  induction isOpen with
  | @pointers outer points =>
    refine ⟨outer, ?_, points.pointee_eq isAggregate⟩
    cases points with
    | here => exact strip_of_isAggregate isAggregate
    | pointer isPointer _ => exact strip_of_pointed isPointer
  | wrapper isWrapper _ ih =>
    rw [strip_of_wrapped isWrapper]
    exact ih

end

theorem Nests.pointsTo_or_wrapped (nests : Nests inner outer) :
    PointsTo inner outer ∨ ∃ base, outer.pointee.wrapped? = some base := by
  induction nests with
  | here => exact .inl .here
  | pointer isPointer _ ih =>
    rw [pointee_of_pointed isPointer]
    exact ih.imp_left (.pointer isPointer)
  | @wrapper base outer isWrapper _ _ =>
    rw [pointee_of_wrapped isWrapper]
    exact .inr ⟨base, isWrapper⟩

theorem Nests.reaches_wrapper (nests : Nests inner outer) (isClosed : ¬LiesOpenIn inner outer) :
    ∃ type base, outer.strip = some type ∧ type.pointee.wrapped? = some base := by
  induction nests with
  | here => exact absurd (.pointers .here) isClosed
  | @pointer target outer isPointer nests _ =>
    rcases (Nests.pointer isPointer nests).pointsTo_or_wrapped with points | ⟨base, isWrapper⟩
    · exact absurd (.pointers points) isClosed
    · exact ⟨outer, base, strip_of_pointed isPointer, isWrapper⟩
  | wrapper isWrapper _ ih =>
    rw [strip_of_wrapped isWrapper]
    exact ih fun isOpen => isClosed (.wrapper isWrapper isOpen)

theorem Nests.candidates_eq (isAggregate : inner.isAggregate = true) (nests : Nests inner outer) :
    outer.candidates = [outer] := by
  obtain ⟨shape, origin, modifier, tags⟩ := outer
  cases shape with
  | ambiguous candidates =>
    -- Nothing but a symbol of the same shape could stand inside.
    cases nests with
    | here => cases isAggregate
    | pointer isPointer _ => cases isPointer
    | wrapper isWrapper _ => cases isWrapper
  | _ => rfl

end Symbol

namespace MemberAccess

variable {environment : Environment} {state : State} {owner receiver : Symbol} {name : String}
  {found : List Symbol} {final : State} {declarations : List Declaration} {middle : State}
  {base type : Symbol} {symbols : List Symbol}

theorem definition?_onReceiver (owner receiver found : Symbol) :
    (onReceiver owner receiver found).definition? = found.definition? := by
  unfold onReceiver
  split <;> rfl

theorem declared_of_isAggregate (isAggregate : owner.isAggregate = true)
    (searched : Lookup.members owner name .all environment state = .ok (declarations, middle))
    (resolved : Query.symbolsOf declarations environment middle = .ok (found, final)) :
    declared owner receiver name environment state =
      .ok (found.map (onReceiver owner receiver), final) := by
  obtain ⟨shape, origin, modifier, tags⟩ := owner
  cases shape with
  | aggregate aggregate =>
    exact Query.bind_eq_ok.mpr ⟨declarations, middle, searched,
      Query.bind_eq_ok.mpr ⟨found, final, resolved, rfl⟩⟩
  | _ => cases isAggregate

theorem declared_of_wrapped (isWrapper : owner.wrapped? = some base) :
    declared owner receiver name environment state = .ok ([], state) := by
  obtain ⟨shape, origin, modifier, tags⟩ := owner
  cases shape with
  | member | aliased | parameter => rfl
  | _ => cases isWrapper

theorem candidatesOn_of_declared (ufcs : Bool) (isStripped : receiver.strip = some type)
    (isDeclared : declared type.pointee receiver name environment state = .ok (found, final))
    (isNonempty : found ≠ []) :
    candidatesOn name ufcs receiver environment state = .ok (found, final) := by
  unfold candidatesOn
  rw [isStripped]
  refine Query.bind_eq_ok.mpr ⟨found, final, isDeclared, ?_⟩
  simp [isNonempty]
  rfl

theorem definition?_of_property {property : Symbol}
    (returned : Property.member? owner name environment state = .ok (some property, final)) :
    property.definition? = none := by
  obtain ⟨tree, _, ⟨⟩, returned⟩ := Query.bind_eq_ok.mp returned
  cases isOwner : Property.ownerType? environment.program.tree owner with
  | none =>
    rw [isOwner] at returned
    cases returned
  | some type =>
    rw [isOwner] at returned
    dsimp only at returned
    cases isEntry : Property.find? (Property.categoryOf environment.program.tree type) name with
    | none =>
      rw [isEntry] at returned
      cases returned
    | some entry =>
      rw [isEntry] at returned
      obtain ⟨base, later, -, ⟨⟩⟩ := Query.bind_eq_ok.mp returned
      rfl

theorem candidatesOn_of_wrapped
    (isStripped : receiver.strip = some type) (isWrapper : type.pointee.wrapped? = some base)
    (returned : candidatesOn name false receiver environment state = .ok (symbols, final)) :
    ∀ symbol ∈ symbols, symbol.definition? = none := by
  unfold candidatesOn at returned
  rw [isStripped] at returned
  obtain ⟨found, later, isDeclared, returned⟩ := Query.bind_eq_ok.mp returned
  rw [declared_of_wrapped isWrapper] at isDeclared
  cases isDeclared
  obtain ⟨property?, later, isProperty, returned⟩ := Query.bind_eq_ok.mp returned
  cases property? with
  | none =>
    simp only [Symbol.isAggregate_of_wrapped isWrapper] at returned
    cases returned
    exact nofun
  | some property =>
    cases returned
    simpa using definition?_of_property isProperty

theorem candidates_of_open
    (ufcs : Bool) (isAggregate : owner.isAggregate = true) (nests : owner.Nests receiver)
    (isOpen : owner.LiesOpenIn receiver) (isRunning : state.isCancelled = false)
    (searched : Lookup.members owner name .all environment state = .ok (declarations, middle))
    (resolved : Query.symbolsOf declarations environment middle = .ok (found, final))
    (isNonempty : found ≠ []) :
    candidates receiver name ufcs environment state =
      .ok (found.map (onReceiver owner receiver), final) := by
  obtain ⟨type, isStripped, isPointee⟩ := isOpen.reaches isAggregate
  unfold candidates
  rw [nests.candidates_eq isAggregate, Query.collect_singleton_eq_ok isRunning]
  refine candidatesOn_of_declared ufcs isStripped ?_ (by simpa using isNonempty)
  rw [isPointee]
  exact declared_of_isAggregate isAggregate searched resolved

theorem definition?_of_closed
    (isAggregate : owner.isAggregate = true) (nests : owner.Nests receiver)
    (isClosed : ¬owner.LiesOpenIn receiver) (isRunning : state.isCancelled = false)
    (returned : candidates receiver name false environment state = .ok (symbols, final)) :
    ∀ symbol ∈ symbols, symbol.definition? = none := by
  obtain ⟨type, base, isStripped, isWrapper⟩ := nests.reaches_wrapper isClosed
  unfold candidates at returned
  rw [nests.candidates_eq isAggregate, Query.collect_singleton_eq_ok isRunning] at returned
  exact candidatesOn_of_wrapped isStripped isWrapper returned

end MemberAccess

/--
Member access on a nesting of pointers and wrappers around an aggregate, for a
name with which the search of the aggregate finds declarations that resolve.

Where every wrapper stands outside every pointer, the receiver gives symbols with
the same definitions in the same order as the aggregate itself. Elsewhere no
declared member is found.
-/
theorem member_access_through_nesting
    (program : Program)
    (evaluator : Evaluator)
    {owner receiver : Symbol}
    {name : String}
    {limit : Nat}
    {state middle final : State}
    {declarations : List Declaration}
    {found : List Symbol}
    (isAggregate : owner.isAggregate = true)
    (nests : owner.Nests receiver)
    (isRunning : state.isCancelled = false)
    (searched :
      Engine.run program evaluator limit (Operation.searchMembers owner name .all).query state =
        .ok (declarations, middle))
    (resolved :
      Engine.run program evaluator limit (Operation.declarationSymbols declarations).query middle =
        .ok (found, final))
    (isNonempty : found ≠ []) :
    (owner.LiesOpenIn receiver →
        ∀ ufcs,
          ∃ onReceiver onOwner,
            Engine.Settles program evaluator (Operation.resolveFurther receiver name ufcs).query
                state onReceiver final ∧
              Engine.Settles program evaluator (Operation.resolveFurther owner name ufcs).query
                  state onOwner final ∧
              onOwner ≠ [] ∧
                onReceiver.map Symbol.definition? = onOwner.map Symbol.definition?) ∧
      (¬owner.LiesOpenIn receiver →
        ∀ limit symbols later,
          Engine.run program evaluator limit (Operation.resolveFurther receiver name false).query
              state = .ok (symbols, later) →
            ∀ symbol ∈ symbols, symbol.definition? = none) := by
  constructor
  · intro isOpen ufcs
    have onReceiver :=
      candidates_of_open ufcs isAggregate nests isOpen isRunning searched resolved isNonempty
    have onOwner :=
      candidates_of_open ufcs isAggregate .here (.pointers .here) isRunning searched
        resolved isNonempty
    refine ⟨_, _, .ofRun (query_orderly program _) onReceiver,
      .ofRun (query_orderly program _) onOwner, by simpa using isNonempty, ?_⟩
    simp only [List.map_map, Function.comp_def, definition?_onReceiver]
  · intro isClosed limit symbols later returned
    exact definition?_of_closed isAggregate nests isClosed isRunning returned

/--
A struct `S` with a field `x`, and a template `Box(T)` with fields `T* p` and `T t`: a pointer to a
bound parameter, and a bound parameter that may stand for a pointer.
-/
def Program.boxes : Program :=
  let drafting : Drafting Unit := do
    let module ← Draft.addModule "m"
    let struct ← Draft.addMember module "S" (.aggregate .structType false [])
    discard <| Draft.addMember struct "x" (.var (some (.basic .int)) none)
    let box ← Draft.addMember module "Box" (.aggregate .structType false [])
    discard <| Draft.addTemplateParameter box "T" (.type none none)
    discard <| Draft.addMember box "p" (.var (some (.pointer (.named "T"))) none)
    discard <| Draft.addMember box "t" (.var (some (.named "T")) none)
  .ofTree (drafting.run {}).2.tree

/-- Whether a symbol is an aggregate in which the search for `x` finds the field of `S`. -/
def Symbol.showsField (owner : Symbol) (state : State) : Bool :=
  owner.isAggregate &&
    (Engine.run .boxes .standard 9 (Operation.searchMembers owner "x" .all).query state).toOption.any
      fun searched =>
        (Engine.run .boxes .standard 9 (Operation.declarationSymbols searched.1).query
            searched.2).toOption.any
          fun resolved => resolved.1.map Symbol.definition? == [some ⟨2⟩]

theorem Symbol.found_of_showsField
    {owner : Symbol} {state : State} (shows : owner.showsField state = true) :
    owner.isAggregate = true ∧
      ∃ declarations middle found final,
        Engine.run .boxes .standard 9 (searchMembers owner "x" .all).query state =
            .ok (declarations, middle) ∧
          Engine.run .boxes .standard 9 (declarationSymbols declarations).query middle =
              .ok (found, final) ∧
          found.map Symbol.definition? = [some ⟨2⟩] := by
  obtain ⟨isAggregate, search⟩ := Bool.and_eq_true_iff.mp shows
  obtain ⟨⟨declarations, middle⟩, searched, resolution⟩ := exists_of_any search
  obtain ⟨⟨found, final⟩, resolved, isField⟩ := exists_of_any resolution
  exact ⟨isAggregate, declarations, middle, found, final, searched, resolved, beq_iff_eq.mp isField⟩

/-- Through the field `t` of `Box!(S*)`, a pointer inside wrappers, `x` is found as on `S`. -/
theorem member_access_through_bound_pointer :
    ∃ owner receiver state,
      Engine.run .boxes .standard 9
            (Operation.resolveType
              (.member (.instantiated "Box" [.type (.pointer (.named "S"))]) "t")).query
            (.start ⟨0⟩ none) =
          .ok ([receiver], state) ∧
        owner.isAggregate = true ∧
          owner.LiesOpenIn receiver ∧
          ∃ onReceiver onOwner final,
            Engine.Settles .boxes .standard (Operation.resolveFurther receiver "x" true).query
                state onReceiver final ∧
              Engine.Settles .boxes .standard (Operation.resolveFurther owner "x" true).query
                  state onOwner final ∧
              onOwner ≠ [] ∧
                onReceiver.map Symbol.definition? = onOwner.map Symbol.definition? := by
  have run :
      ((Engine.run .boxes .standard 9
            (resolveType (.member (.instantiated "Box" [.type (.pointer (.named "S"))]) "t")).query
            (.start ⟨0⟩ none)).toOption.any
        fun outcome =>
          outcome.1.length == 1 && !outcome.2.isCancelled &&
            outcome.1.all fun receiver =>
              ((receiver.wrapped?.bind Symbol.wrapped?).bind Symbol.pointed?).any
                fun owner => owner.showsField outcome.2) =
        true := by
    decide +kernel
  obtain ⟨⟨receivers, state⟩, returned, passes⟩ := exists_of_any run
  simp only [Bool.and_eq_true, beq_iff_eq, List.length_eq_one_iff, Bool.not_eq_true'] at passes
  obtain ⟨⟨⟨receiver, rfl⟩, isRunning⟩, shows⟩ := passes
  simp only [List.all_cons, List.all_nil, Bool.and_true, Option.any_eq_true,
    Option.bind_eq_some_iff] at shows
  obtain ⟨owner, ⟨pointer, ⟨parameter, isMember, isParameter⟩, isPointer⟩, shows⟩ := shows
  obtain ⟨isAggregate, declarations, middle, found, final, searched, resolved, isField⟩ :=
    Symbol.found_of_showsField shows
  have isOpen : owner.LiesOpenIn receiver :=
    .wrapper isMember (.wrapper isParameter (.pointers (.pointer isPointer .here)))
  have nests : owner.Nests receiver :=
    .wrapper isMember (.wrapper isParameter (.pointer isPointer .here))
  have isNonempty : found ≠ [] := by
    rintro rfl
    cases isField
  obtain ⟨onReceiver, onOwner, agree⟩ :=
    (member_access_through_nesting .boxes .standard isAggregate nests isRunning searched resolved
      isNonempty).1 isOpen true
  exact ⟨owner, receiver, state, returned, isAggregate, isOpen, onReceiver, onOwner, final, agree⟩

/--
Through the field `p` of `Box!(S)`, a pointer to a bound parameter, `x` is not found, although the
search of `S` finds it.
-/
theorem members_hide_below_pointer :
    ∃ owner receiver state,
      Engine.run .boxes .standard 9
            (Operation.resolveType (.member (.instantiated "Box" [.type (.named "S")]) "p")).query
            (.start ⟨0⟩ none) =
          .ok ([receiver], state) ∧
        state.isCancelled = false ∧
          owner.isAggregate = true ∧
          owner.Nests receiver ∧
            (∃ declarations middle found final,
              Engine.run .boxes .standard 9 (Operation.searchMembers owner "x" .all).query state =
                  .ok (declarations, middle) ∧
                Engine.run .boxes .standard 9 (Operation.declarationSymbols declarations).query
                      middle =
                    .ok (found, final) ∧
                  found ≠ []) ∧
            (∃ symbols final,
              Engine.Settles .boxes .standard (Operation.resolveFurther owner "x" false).query
                  state symbols final ∧
                symbols.map Symbol.definition? = [some ⟨2⟩]) ∧
              ∃ final,
                Engine.Settles .boxes .standard
                  (Operation.resolveFurther receiver "x" false).query state [] final := by
  have run :
      ((Engine.run .boxes .standard 9
            (resolveType (.member (.instantiated "Box" [.type (.named "S")]) "p")).query
            (.start ⟨0⟩ none)).toOption.any
        fun outcome =>
          outcome.1.length == 1 && !outcome.2.isCancelled &&
            outcome.1.all fun receiver =>
              (((receiver.wrapped?.bind Symbol.pointed?).bind Symbol.wrapped?).any
                fun owner => owner.showsField outcome.2) &&
                (Engine.run .boxes .standard 9 (resolveFurther receiver "x" false).query
                    outcome.2).toOption.any
                  fun hidden => hidden.1.isEmpty) =
        true := by
    decide +kernel
  obtain ⟨⟨receivers, state⟩, returned, passes⟩ := exists_of_any run
  simp only [Bool.and_eq_true, beq_iff_eq, List.length_eq_one_iff, Bool.not_eq_true'] at passes
  obtain ⟨⟨⟨receiver, rfl⟩, isRunning⟩, shows⟩ := passes
  simp only [List.all_cons, List.all_nil, Bool.and_true, Bool.and_eq_true] at shows
  obtain ⟨shows, hides⟩ := shows
  simp only [Option.any_eq_true, Option.bind_eq_some_iff] at shows
  obtain ⟨owner, ⟨parameter, ⟨pointer, isMember, isPointer⟩, isParameter⟩, shows⟩ := shows
  obtain ⟨isAggregate, declarations, middle, found, final, searched, resolved, isField⟩ :=
    Symbol.found_of_showsField shows
  have isNonempty : found ≠ [] := by
    rintro rfl
    cases isField
  have onOwner :=
    candidates_of_open false isAggregate .here (.pointers .here) isRunning searched
      resolved isNonempty
  obtain ⟨⟨symbols, later⟩, isHidden, isEmpty⟩ := exists_of_any hides
  cases List.isEmpty_iff.mp isEmpty
  refine ⟨owner, receiver, state, returned, isRunning, isAggregate,
    .wrapper isMember (.pointer isPointer (.wrapper isParameter .here)),
    ⟨declarations, middle, found, final, searched, resolved, isNonempty⟩,
    ⟨_, final, .ofRun (query_orderly .boxes _) onOwner, ?_⟩,
    ⟨later, .ofRun (query_orderly .boxes _) isHidden⟩⟩
  simpa only [List.map_map, Function.comp_def, definition?_onReceiver] using isField

end DScope
