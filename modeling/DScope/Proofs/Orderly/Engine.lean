import DScope.Proofs.Sieve.Run

namespace DScope

/-!
# All rules are orderly

A sieve that holds nothing back is passed by everything. To keep to it means to make
orderly moves, so the rules are orderly because they keep to every sieve.
-/

open Sieve

variable {α : Type} {question : Question} {widened : Query α}

/-- The sieve that everything passes. -/
def Sieve.whole : Sieve where
  node _ := True
  statement _ := True
  tag _ := True
  hasBases := True
  hasTargets := True
  options _ := True
  hasGaps := True

namespace Sieve

theorem passes_whole [Composite α] (item : α) : whole.Passes item :=
  ⟨fun _ _ => ⟨fun _ _ => trivial, fun _ _ => trivial, fun _ => trivial, fun _ => trivial⟩,
    fun _ _ => trivial⟩

theorem passesStack_whole (state : State) : whole.PassesStack state :=
  fun _ _ => ⟨trivial, fun _ => trivial, passes_whole _, trivial⟩

theorem holds_whole (state : State) : whole.Holds 0 state :=
  ⟨passesStack_whole state, trivial, fun _ _ _ => passes_whole _, Nat.zero_le _, passes_whole _⟩

theorem confines_whole {post : α → Prop} (outcome : Except Halt (α × State))
    (isPost : ∀ value, post value) : whole.Confines 0 post outcome outcome :=
  ⟨rfl, fun _ => ⟨isPost _, holds_whole _⟩, fun _ _ => trivial⟩

theorem passesQuestion_whole (question : Question) : whole.PassesQuestion question := by
  cases question with
  | symbol node bindings => exact ⟨trivial, passes_whole bindings⟩
  | type | value | typing => trivial

theorem passesAnswer_whole (answer : question.Answer) : whole.PassesAnswer question answer := by
  cases question <;> exact passes_whole _

theorem whole_fits (program : Program) : whole.Fits program program where
  tree := covers_self (fun _ => trivial) (fun _ => trivial) trivial program.tree
  modules := rfl
  root := rfl
  isModule _ := trivial
  bases _ _ := trivial
  tag _ _ _ _ := trivial
  union _ _ := trivial

end Sieve

/-- A program beside itself, with nothing held back. -/
def Realm.whole (program : Program) (within : Nat → Question → Prop) (blames : Prop) : Realm where
  toSieve := .whole
  narrow := program
  wide := program
  fits := Sieve.whole_fits program
  within := within
  blames := blames

variable {program : Program} {within : Nat → Question → Prop} {standing : Standing}
  {asks : Question → Prop} {post : α → Prop} {blames : Prop}

/-- A query that keeps to the whole realm gives only what it says. -/
theorem Realm.Relates.isPost {query : Query α} {value : α}
    (relates : (Realm.whole program within blames).Relates standing asks query widened post)
    (mayReturn : query.MayReturn program value) : post value := by
  obtain ⟨⟨_, evaluator, answer⟩, state, final, rfl, returned⟩ := mayReturn
  have agrees := relates.agrees evaluator fun question _ state _ =>
    confines_whole (answer question state) fun answer => passesAnswer_whole answer
  exact ((agrees state (holds_whole state)).returned returned).1

theorem Realm.Relates.orderly {query : Query α}
    (relates : (Realm.whole program within blames).Relates standing asks query widened post) :
    Moves program within blames standing asks query := by
  induction relates with
  | pure => exact .pure _
  | mono _ _ ih => exact ih
  | bind first _ ihFirst ihSecond =>
    exact .bindReturned ihFirst fun value mayReturn => ihSecond value (first.isPost mayReturn)
  | halt isOwn => exact .halt isOwn
  | reading _ ih => exact .reading ih
  | asking isListed isPermitted => exact .asking isListed isPermitted
  | seeing seesView _ ih =>
    exact .seeing seesView fun state => ih state (passesStack_whole state)
  | reporting _ isOwn => exact .reporting _ isOwn
  | framed opens _ _ _ _ ih => exact .framed opens ih
  | overriding _ _ ih => exact .overriding ih
  | resolving _ ih => exact .resolving ih
  | visiting isDeclared _ ih => exact .visiting isDeclared ih
  | evaluating _ _ ih => exact .evaluating ih
  | remembering isPlain _ ih => exact .remembering isPlain ih

/-! ## Steps of scans -/

/--
A module is scanned once, so a scan of modules is the same under every number of steps
above the number of declarations: its end is not what ends the scan.
-/
theorem Scan.module_eq_of_lt {steps : Nat} (isEnough : program.tree.nodes.size < steps)
    (scan : Scan) (id : NodeId) :
    scan.module program steps id = scan.module program (program.tree.nodes.size + 1) id :=
  (Follows.module (whole_fits program) (passes_whole scan) trivial
    (.ofSize (fun _ => rfl) (Nat.lt_succ_self _) _) (.ofSize (fun _ => rfl) isEnough _)).same

/--
A mixin template is not entered while it is being scanned, so a scan of a mixin is the
same under every number of steps above the number of declarations.
-/
theorem Lookup.scanMixin_eq_of_lt {environment : Environment} {steps : Nat}
    (isEnough : environment.program.tree.nodes.size < steps) (scan : Scan) (mixin : NodeId)
    (state : State) :
    scanMixin steps scan mixin environment state =
      scanMixin (environment.program.tree.nodes.size + 1) scan mixin environment state := by
  obtain ⟨program, evaluator, answer⟩ := environment
  have relates :
      (Realm.whole program (fun _ _ => True) True).Relates .plain (fun _ => True)
        (scanMixin (program.tree.nodes.size + 1) scan mixin) (scanMixin steps scan mixin) _ :=
    scanMixin_confined (fun _ _ => trivial) trivial
      (.ofSize (fun _ => rfl) (Nat.lt_succ_self _) _) (.ofSize (fun _ => rfl) isEnough _)
      (passes_whole scan)
  have agrees := relates.agrees evaluator fun question _ state _ =>
    confines_whole (answer question state) fun answer => passesAnswer_whole answer
  exact (agrees state (holds_whole state)).same

theorem DeclaredSymbol.of_orderly
    (admits : program.tree.Admits within) (id : NodeId) (given : Bindings) :
    Orderly program within standing asks (of id given) :=
  Realm.Relates.orderly (of_confined admits trivial (passes_whole given))

/--
The rule that answers a question is orderly.

It asks for parts of what it is asked about and for what the tree raises.
-/
theorem Engine.respond_orderly
    (admits : program.tree.Admits within) (isPermitted : standing.permits question)
    (raised : program.tree.RaisesOnly asks)
    (lighter : ∀ other : Question, other.weight < question.weight → asks other) :
    Orderly program within standing asks (respond question) :=
  Realm.Relates.orderly
    (respond_confined admits isPermitted raised lighter (fun _ => trivial)
      (passesQuestion_whole question))

theorem Engine.respond_orderly_of_permits
    (program : Program) (isPermitted : standing.permits question) :
    Orderly program (fun _ _ => True) standing (fun _ => True) (respond question) :=
  respond_orderly program.tree.admits_all isPermitted (fun _ _ => trivial) (fun _ _ => trivial)

end DScope
