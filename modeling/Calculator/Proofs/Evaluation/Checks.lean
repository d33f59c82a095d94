import Calculator.Expr.Eval
import Calculator.Proofs.Evaluation.Resolution
/-!
# The checks of a tree

Evaluation fails where a check does, and only there. A tree lists its checks in the
order of one traversal (`Expr.checks`), and apart from them it has a value in any
context, which no check is asked for (`Expr.value`). Evaluation gives that value if
all checks pass, and the error of the first that does not otherwise
(`Expr.eval_eq_outcome`). So whatever stands in a tree behind a check that fails
makes no difference (`Expr.Hole.eval_fill`).
-/

namespace Calculator

variable {α β : Type} {context : Context}

/-! ## Values -/

/-- The value of the factorial of a float, for what it is worth if the float is no
natural number. -/
def Factorial.value (x : Float) : Float :=
  Factorial.product ((Binary64.ofFloat x).integer?.getD 0).toNat

/-- The value of a name, for what it is worth if the name is no variable. -/
def Context.variableValue (context : Context) (name : String) : Float :=
  match context.lookup name with
  | some (.var value) => value
  | _ => Curried.noValue

/-- The result of a call, for what it is worth if the name is no function or takes
another number of arguments. -/
def Context.callValue (context : Context) (name : String) (arguments : List Float) : Float :=
  match context.lookup name with
  | some (.fn operation) => operation.body arguments
  | _ => Curried.noValue

mutual

/-- **The value of a tree where nothing is checked.** -/
def Expr.value (context : Context) : Expr → Float
  | .num value => value
  | .var name => context.variableValue name
  | .call name arguments => context.callValue name (Expr.values context arguments)
  | .neg operand => -operand.value context
  | .fact operand => Factorial.value (operand.value context)
  | .binary op left right => op.apply (left.value context) (right.value context)

/-- The values of several trees. -/
def Expr.values (context : Context) : List Expr → List Float
  | [] => []
  | first :: rest => first.value context :: Expr.values context rest

end

theorem Expr.length_values (trees : List Expr) :
    (Expr.values context trees).length = trees.length := by
  induction trees with
  | nil => rfl
  | cons first rest ih => rw [Expr.values, List.length_cons, ih, List.length_cons]

/-! ## Checks -/

/-- **What a tree has to meet** somewhere in it. -/
inductive Check where
  /-- The name is a variable. -/
  | variable (name : String)
  /-- The name is a function. -/
  | function (name : String)
  /-- The function takes this many arguments. -/
  | arity (name : String) (count : Nat)
  /-- The value of the operand is a natural number. -/
  | natural (operand : Expr)

/-- Why a float has no factorial: it is no integer, or one below zero. -/
def Factorial.failure? (x : Float) : Option EvalError :=
  match (Binary64.ofFloat x).integer? with
  | none => some (.nonIntegerFactorial x)
  | some n => if n < 0 then some (.negativeFactorial x) else none

/-- A name is no variable. -/
def Context.variableFailure? (context : Context) (name : String) : Option EvalError :=
  match context.lookup name with
  | some (.var _) => none
  | _ => some (.undefinedVariable name)

/-- A name is no function. -/
def Context.functionFailure? (context : Context) (name : String) : Option EvalError :=
  match context.lookup name with
  | some (.fn _) => none
  | _ => some (.undefinedFunction name)

/-- A function does not take this many arguments. What is no function is not asked. -/
def Context.arityFailure? (context : Context) (name : String) (count : Nat) : Option EvalError :=
  match context.lookup name with
  | some (.fn operation) =>
    if count = operation.arity then none
    else some (.arityMismatch ⟨name, operation.arity, count⟩)
  | _ => none

/-- **The error of a check** that does not pass. -/
def Check.failure? (context : Context) : Check → Option EvalError
  | .variable name => context.variableFailure? name
  | .function name => context.functionFailure? name
  | .arity name count => context.arityFailure? name count
  | .natural operand => Factorial.failure? (operand.value context)

mutual

/-- **The checks of a tree**, in the order of one traversal from left to right. A
function is looked up before its arguments are entered and counts them after, and a
factorial checks its operand once that has been left. -/
def Expr.checks : Expr → List Check
  | .num _ => []
  | .var name => [.variable name]
  | .call name arguments =>
    .function name :: (Expr.checksAll arguments ++ [.arity name arguments.length])
  | .neg operand => operand.checks
  | .fact operand => operand.checks ++ [.natural operand]
  | .binary _ left right => left.checks ++ right.checks

/-- The checks of several trees, one after the other. -/
def Expr.checksAll : List Expr → List Check
  | [] => []
  | first :: rest => first.checks ++ Expr.checksAll rest

end

theorem Expr.checksAll_append (trees trees' : List Expr) :
    Expr.checksAll (trees ++ trees') = Expr.checksAll trees ++ Expr.checksAll trees' := by
  induction trees with
  | nil => rfl
  | cons first rest ih =>
    rw [List.cons_append, Expr.checksAll, ih, Expr.checksAll, List.append_assoc]

namespace Check

/-- The first error among checks. -/
def firstFailure? (context : Context) (checks : List Check) : Option EvalError :=
  checks.findSome? (failure? context)

theorem firstFailure?_append (checks checks' : List Check) :
    firstFailure? context (checks ++ checks') =
      (firstFailure? context checks).or (firstFailure? context checks') :=
  List.findSome?_append

theorem firstFailure?_cons (check : Check) (checks : List Check) :
    firstFailure? context (check :: checks) =
      (check.failure? context).or (firstFailure? context checks) := by
  rw [firstFailure?, List.findSome?_cons]
  cases check.failure? context <;> rfl

theorem firstFailure?_singleton (check : Check) :
    firstFailure? context [check] = check.failure? context := by
  rw [firstFailure?_cons, firstFailure?, List.findSome?_nil, Option.or_none]

/-- There is none if all checks pass. -/
theorem firstFailure?_eq_none_iff {checks : List Check} :
    firstFailure? context checks = none ↔ ∀ check ∈ checks, check.failure? context = none :=
  List.findSome?_eq_none_iff

/-- **It is the error of a check that only passing ones come before.** -/
theorem firstFailure?_eq_some_iff {checks : List Check} {error : EvalError} :
    firstFailure? context checks = some error ↔ ∃ before check after,
      checks = before ++ check :: after ∧
        (∀ earlier ∈ before, earlier.failure? context = none) ∧
        check.failure? context = some error := by
  rw [firstFailure?, List.findSome?_eq_some_iff]
  constructor
  · rintro ⟨before, check, after, hsplit, hcheck, hbefore⟩
    exact ⟨before, check, after, hsplit, hbefore, hcheck⟩
  · rintro ⟨before, check, after, hsplit, hbefore, hcheck⟩
    exact ⟨before, check, after, hsplit, hcheck, hbefore⟩

end Check

/-! ## Outcomes -/

/-- The outcome of a failure, or of a value where there is none. -/
def EvalError.outcome (failure : Option EvalError) (value : α) : Except EvalError α :=
  match failure with
  | some error => .error error
  | none => .ok value

namespace EvalError

variable {failure : Option EvalError} {value : α}

theorem outcome_map (f : α → β) : (outcome failure value).map f = outcome failure (f value) := by
  cases failure <;> rfl

/-- The first failure is that of the first part, or else that of the second. -/
theorem outcome_bind {f : α → Except EvalError β} {failure' : Option EvalError} {result : β}
    (h : f value = outcome failure' result) :
    (outcome failure value).bind f = outcome (failure.or failure') result := by
  cases failure with
  | some error => rfl
  | none => exact h

/-- So it is where both parts make the value. -/
theorem outcome_bind_map {γ : Type} {failure' : Option EvalError} {value' : β}
    (f : α → β → γ) :
    ((outcome failure value).bind fun a => (outcome failure' value').map (f a)) =
      outcome (failure.or failure') (f value value') :=
  outcome_bind (outcome_map (f value))

theorem outcome_eq_ok_iff {result : α} :
    outcome failure value = .ok result ↔ failure = none ∧ value = result := by
  cases failure <;> simp [outcome]

theorem outcome_eq_error_iff {error : EvalError} :
    outcome failure value = .error error ↔ failure = some error := by
  cases failure <;> simp [outcome]

end EvalError

open EvalError (outcome outcome_bind outcome_bind_map outcome_map)

/-- A factorial checks its operand. -/
theorem factorial_eq_outcome (x : Float) :
    factorial x = outcome (Factorial.failure? x) (Factorial.value x) := by
  unfold factorial Factorial.failure? Factorial.value
  cases (Binary64.ofFloat x).integer? with
  | none => rfl
  | some n =>
    dsimp only
    by_cases hneg : n < 0
    · rw [if_pos hneg, if_pos hneg]
      rfl
    · rw [if_neg hneg, if_neg hneg]
      rfl

/-- A variable checks its name. -/
theorem Context.variable?_eq_outcome (context : Context) (name : String) :
    context.variable? name =
      outcome (context.variableFailure? name) (context.variableValue name) := by
  unfold Context.variable? variableFailure? variableValue
  rcases context.lookup name with _ | value | operation <;> rfl

/-- **A call checks its name, then its arguments, then their number.** -/
theorem Context.call_eq_outcome (context : Context) (name : String) {failure : Option EvalError}
    {arguments : Except EvalError (List Float)} {values : List Float}
    (h : arguments = outcome failure values) :
    ((context.function? name).bind fun operation =>
        arguments.bind fun values => operation.callAs name values) =
      outcome ((context.functionFailure? name).or
        (failure.or (context.arityFailure? name values.length)))
        (context.callValue name values) := by
  subst h
  unfold function? functionFailure? arityFailure? callValue
  rcases context.lookup name with _ | value | operation
  · rfl
  · rfl
  · refine outcome_bind ?_
    unfold Operation.callAs Operation.call
    by_cases hlength : values.length = operation.arity
    · simp only [if_pos hlength]
      rfl
    · simp only [if_neg hlength]
      rfl

mutual

/-- **Evaluation gives the error of the first check that fails**, and the value of the
tree if none does. -/
theorem Expr.eval_eq_outcome (context : Context) : (tree : Expr) →
    tree.eval context = outcome (Check.firstFailure? context tree.checks) (tree.value context)
  | .num value => rfl
  | .var name => by
    rw [Expr.eval, Expr.checks, Check.firstFailure?_singleton]
    exact context.variable?_eq_outcome name
  | .call name arguments => by
    rw [Expr.eval, Expr.checks, Check.firstFailure?_cons, Check.firstFailure?_append,
      Check.firstFailure?_singleton, Expr.value,
      context.call_eq_outcome name (Expr.evalAll_eq_outcome context arguments),
      Expr.length_values]
    rfl
  | .neg operand => by
    rw [Expr.eval, operand.eval_eq_outcome context, outcome_map, Expr.checks, Expr.value]
  | .fact operand => by
    rw [Expr.eval, operand.eval_eq_outcome context, outcome_bind (factorial_eq_outcome _),
      Expr.checks, Check.firstFailure?_append, Check.firstFailure?_singleton, Expr.value]
    rfl
  | .binary op left right => by
    rw [Expr.eval, left.eval_eq_outcome context, right.eval_eq_outcome context,
      outcome_bind_map, Expr.checks, Check.firstFailure?_append, Expr.value]

/-- So it does with several trees, one after the other. -/
theorem Expr.evalAll_eq_outcome (context : Context) : (trees : List Expr) →
    Expr.evalAll context trees =
      outcome (Check.firstFailure? context (Expr.checksAll trees)) (Expr.values context trees)
  | [] => rfl
  | first :: rest => by
    rw [Expr.evalAll, first.eval_eq_outcome context, Expr.evalAll_eq_outcome context rest,
      outcome_bind_map, Expr.checksAll, Check.firstFailure?_append, Expr.values]

end

/-! ## Subtrees -/

/-- **A tree without one of its subtrees.** -/
inductive Expr.Hole where
  /-- The whole tree is missing. -/
  | here
  | argument (name : String) (before : List Expr) (inner : Expr.Hole) (after : List Expr)
  | neg (inner : Expr.Hole)
  | fact (inner : Expr.Hole)
  | left (op : BinaryOp) (inner : Expr.Hole) (operand : Expr)
  | right (op : BinaryOp) (operand : Expr) (inner : Expr.Hole)

namespace Expr.Hole

/-- **The tree with a subtree put in.** -/
def fill : Expr.Hole → Expr → Expr
  | here, tree => tree
  | argument name before inner after, tree => .call name (before ++ inner.fill tree :: after)
  | neg inner, tree => .neg (inner.fill tree)
  | fact inner, tree => .fact (inner.fill tree)
  | left op inner operand, tree => .binary op (inner.fill tree) operand
  | right op operand inner, tree => .binary op operand (inner.fill tree)

/-- **The checks before the subtree is entered.** -/
def checksBefore : Expr.Hole → List Check
  | here => []
  | argument name before inner _ =>
    .function name :: (Expr.checksAll before ++ inner.checksBefore)
  | neg inner | fact inner | left _ inner _ => inner.checksBefore
  | right _ operand inner => operand.checks ++ inner.checksBefore

/-- **They come first, then those of the subtree.** -/
theorem checks_fill (hole : Expr.Hole) (tree : Expr) :
    hole.checksBefore ++ tree.checks <+: (hole.fill tree).checks := by
  induction hole with
  | here => exact List.prefix_rfl
  | argument name before inner after ih =>
    rw [fill, checksBefore, Expr.checks, Expr.checksAll_append, Expr.checksAll, List.cons_append]
    simp only [List.append_assoc]
    exact List.cons_prefix_cons.2 ⟨rfl, (List.prefix_append_right_inj _).2
      (ih.trans (List.prefix_append _ _))⟩
  | neg inner ih => exact ih
  | fact inner ih => exact ih.trans (List.prefix_append _ _)
  | left op inner operand ih => exact ih.trans (List.prefix_append _ _)
  | right op operand inner ih =>
    rw [fill, checksBefore, Expr.checks, List.append_assoc]
    exact (List.prefix_append_right_inj _).2 ih

/-- A check that fails before the subtree is entered decides the first failure. -/
theorem firstFailure?_fill {hole : Expr.Hole} {error : EvalError}
    (h : Check.firstFailure? context hole.checksBefore = some error) (tree : Expr) :
    Check.firstFailure? context (hole.fill tree).checks = some error := by
  obtain ⟨later, hlater⟩ := hole.checks_fill tree
  rw [← hlater, Check.firstFailure?_append, Check.firstFailure?_append, h]
  rfl

/-- **Behind a check that fails, one subtree is as good as another.** -/
theorem eval_fill {hole : Expr.Hole}
    (h : ∃ check ∈ hole.checksBefore, check.failure? context ≠ none) (tree tree' : Expr) :
    (hole.fill tree).eval context = (hole.fill tree').eval context := by
  obtain ⟨check, hmem, hfails⟩ := h
  cases hfailure : Check.firstFailure? context hole.checksBefore with
  | none => exact absurd (Check.firstFailure?_eq_none_iff.1 hfailure check hmem) hfails
  | some error =>
    rw [Expr.eval_eq_outcome, Expr.eval_eq_outcome, firstFailure?_fill hfailure,
      firstFailure?_fill hfailure]
    rfl

end Expr.Hole

/-- **Evaluation succeeds if every check passes, and otherwise returns the first that
fails**, for every tree and in every context. Then it gives the value the tree has
where nothing is checked. A subtree that is entered only after a check that fails may
be replaced by any other: its own checks, and those of what comes after it, follow
those before it. -/
theorem eval_decided_by_first_failing_check (context : Context) (tree : Expr) :
    (∀ value, tree.eval context = .ok value ↔
      (∀ check ∈ tree.checks, check.failure? context = none) ∧ tree.value context = value) ∧
    (∀ error, tree.eval context = .error error ↔ ∃ before check after,
      tree.checks = before ++ check :: after ∧
        (∀ earlier ∈ before, earlier.failure? context = none) ∧
        check.failure? context = some error) ∧
    ∀ (hole : Expr.Hole) (subtree : Expr), tree = hole.fill subtree →
      hole.checksBefore ++ subtree.checks <+: tree.checks ∧
      ((∃ check ∈ hole.checksBefore, check.failure? context ≠ none) →
        ∀ other, (hole.fill other).eval context = tree.eval context) := by
  refine ⟨fun value => ?_, fun error => ?_, ?_⟩
  · rw [Expr.eval_eq_outcome, EvalError.outcome_eq_ok_iff, Check.firstFailure?_eq_none_iff]
  · rw [Expr.eval_eq_outcome, EvalError.outcome_eq_error_iff, Check.firstFailure?_eq_some_iff]
  · rintro hole subtree rfl
    exact ⟨hole.checks_fill subtree, fun hfails other => Expr.Hole.eval_fill hfails other subtree⟩

/-- A call with one argument too many fails at an undefined variable in the first of
them, whatever the second is. With the right number it has the value of its argument. -/
theorem undefined_argument_fails_before_count :
    (Expr.call "f" [.var "y", .fact (.var "x")]).eval (.sample 2.0) =
      .error (.undefinedVariable "y") ∧
    (Expr.call "f" [.var "y", .call "g" []]).eval (.sample 2.0) =
      (Expr.call "f" [.var "y", .fact (.var "x")]).eval (.sample 2.0) ∧
    (Expr.call "f" [.var "x"]).eval (.sample 2.0) = .ok 2.0 := by
  have hfunction (value : Float) : (Check.function "f").failure? (.sample value) = none := by cbv
  have hvariable (value : Float) : (Check.variable "x").failure? (.sample value) = none := by cbv
  have harity (value : Float) : (Check.arity "f" 1).failure? (.sample value) = none := by cbv
  have hundefined (value : Float) : (Check.variable "y").failure? (.sample value) =
      some (.undefinedVariable "y") := by
    cbv
  have hvalue (value : Float) : (Expr.call "f" [.var "x"]).value (.sample value) = value := by cbv
  obtain ⟨-, hfirst, hreplace⟩ := eval_decided_by_first_failing_check (.sample 2.0)
    (.call "f" [.var "y", .fact (.var "x")])
  obtain ⟨hpass, -, -⟩ := eval_decided_by_first_failing_check (.sample 2.0) (.call "f" [.var "x"])
  obtain ⟨-, hother⟩ := hreplace (.argument "f" [.var "y"] .here []) (.fact (.var "x")) rfl
  refine ⟨(hfirst _).2 ⟨[.function "f"], .variable "y", _, rfl,
    List.forall_mem_singleton.2 (hfunction 2.0), hundefined 2.0⟩, hother ⟨.variable "y",
      List.mem_cons_of_mem _ List.mem_cons_self, by simp [hundefined 2.0]⟩ (.call "g" []),
    (hpass 2.0).2 ⟨?_, hvalue 2.0⟩⟩
  exact List.forall_mem_cons.2 ⟨hfunction 2.0, List.forall_mem_cons.2 ⟨hvariable 2.0,
    List.forall_mem_singleton.2 (harity 2.0)⟩⟩

end Calculator
