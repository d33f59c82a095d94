import Calculator.Grammar.Machine
/-!
# Changing names

Trees and errors with their names changed, by any function of names. What an
operand joins is put together from trees without a look at their names, so
changing names before or after makes no difference (`Pending.expression_mapNames`).
-/

namespace Calculator

variable (f : String → String)

/-! ## Trees -/

mutual

/-- **The tree with its names changed.** -/
def Expr.mapNames : Expr → Expr
  | .num value => .num value
  | .var name => .var (f name)
  | .call name arguments => .call (f name) (Expr.mapAllNames arguments)
  | .neg operand => .neg operand.mapNames
  | .fact operand => .fact operand.mapNames
  | .binary op left right => .binary op left.mapNames right.mapNames

/-- The trees of a list with their names changed. -/
def Expr.mapAllNames : List Expr → List Expr
  | [] => []
  | first :: rest => first.mapNames :: Expr.mapAllNames rest

end

/-- They are changed one by one. -/
theorem Expr.mapAllNames_eq_map (trees : List Expr) :
    Expr.mapAllNames f trees = trees.map (Expr.mapNames f) := by
  induction trees with
  | nil => rfl
  | cons first rest ih => rw [Expr.mapAllNames, ih, List.map_cons]

mutual

/-- Where no name changes, no tree does. -/
theorem Expr.mapNames_id : (tree : Expr) → tree.mapNames id = tree
  | .num _ | .var _ => rfl
  | .call name arguments => by rw [Expr.mapNames, Expr.mapAllNames_id arguments, id]
  | .neg operand => by rw [Expr.mapNames, operand.mapNames_id]
  | .fact operand => by rw [Expr.mapNames, operand.mapNames_id]
  | .binary op left right => by rw [Expr.mapNames, left.mapNames_id, right.mapNames_id]

/-- Nor does a list of trees. -/
theorem Expr.mapAllNames_id : (trees : List Expr) → Expr.mapAllNames id trees = trees
  | [] => rfl
  | first :: rest => by rw [Expr.mapAllNames, first.mapNames_id, Expr.mapAllNames_id rest]

end

/-! ## What waits for an operand -/

namespace Pending

/-- What waits, with the names of its trees changed. -/
def mapNames (pending : Pending) : Pending where
  sum := pending.sum.map (Prod.map (Expr.mapNames f) id)
  quotient := pending.quotient.map (Prod.map (Expr.mapNames f) id)
  negated := pending.negated
  factors := pending.factors.map (Expr.mapNames f)
  bases := pending.bases.map (Expr.mapNames f)

variable (pending : Pending) (operand : Expr) (op : BinaryOp)

@[simp] theorem start_mapNames : start.mapNames f = start := rfl

/-- A left operand is joined under any names. -/
theorem join_mapNames (left : Option (Expr × BinaryOp)) :
    (join left operand).mapNames f =
      join (left.map (Prod.map (Expr.mapNames f) id)) (operand.mapNames f) := by
  cases left <;> rfl

/-- So is a list of them, by one operation. -/
theorem foldl_mapNames (lefts : List Expr) :
    (lefts.foldl (fun right left => .binary op left right) operand).mapNames f =
      (lefts.map (Expr.mapNames f)).foldl (fun right left => .binary op left right)
        (operand.mapNames f) := by
  induction lefts generalizing operand with
  | nil => rfl
  | cons left lefts ih => rw [List.foldl_cons, ih, List.map_cons, List.foldl_cons, Expr.mapNames]

@[simp] theorem power_mapNames :
    (pending.power operand).mapNames f = (pending.mapNames f).power (operand.mapNames f) :=
  foldl_mapNames f operand .pow pending.bases

@[simp] theorem product_mapNames :
    (pending.product operand).mapNames f = (pending.mapNames f).product (operand.mapNames f) := by
  rw [product, foldl_mapNames, power_mapNames]
  rfl

@[simp] theorem factor_mapNames :
    (pending.factor operand).mapNames f = (pending.mapNames f).factor (operand.mapNames f) := by
  rw [factor, apply_ite (Expr.mapNames f), Expr.mapNames, product_mapNames]
  rfl

@[simp] theorem term_mapNames :
    (pending.term operand).mapNames f = (pending.mapNames f).term (operand.mapNames f) := by
  rw [term, join_mapNames, factor_mapNames]
  rfl

/-- **An operand completes the same expression** under any names. -/
@[simp] theorem expression_mapNames : (pending.expression operand).mapNames f =
    (pending.mapNames f).expression (operand.mapNames f) := by
  rw [expression, join_mapNames, term_mapNames]
  rfl

@[simp] theorem raise_mapNames :
    (pending.raise operand).mapNames f = (pending.mapNames f).raise (operand.mapNames f) := rfl

@[simp] theorem juxtapose_mapNames : (pending.juxtapose operand).mapNames f =
    (pending.mapNames f).juxtapose (operand.mapNames f) := by
  simp [juxtapose, mapNames, power, foldl_mapNames]

@[simp] theorem negate_mapNames : pending.negate.mapNames f = (pending.mapNames f).negate := rfl

@[simp] theorem extendTerm_mapNames : (pending.extendTerm operand op).mapNames f =
    (pending.mapNames f).extendTerm (operand.mapNames f) op := by
  rw [extendTerm, extendTerm, ← term_mapNames]
  rfl

@[simp] theorem extendSum_mapNames : (pending.extendSum operand op).mapNames f =
    (pending.mapNames f).extendSum (operand.mapNames f) op := by
  rw [extendSum, extendSum, ← expression_mapNames]
  rfl

end Pending

/-! ## Errors -/

/-- The lexical error with the text of its number changed. A character that
begins no token is kept as it is. -/
def LexError.mapText : LexError → LexError
  | .unrecognized character => .unrecognized character
  | .malformedNumber text => .malformedNumber (f text)

/-- The mismatch under a changed name. -/
def ArityMismatch.mapName (mismatch : ArityMismatch) : ArityMismatch :=
  { mismatch with name := f mismatch.name }

/-- **The syntax error with the texts in it changed.** -/
def SyntaxError.mapText : SyntaxError → SyntaxError
  | .lexical error => .lexical (error.mapText f)
  | .unexpectedEnd => .unexpectedEnd
  | .unexpectedToken expected found => .unexpectedToken expected found
  | .missingOperand operator found => .missingOperand operator found
  | .undefinedIdentifier name => .undefinedIdentifier (f name)
  | .arityMismatch mismatch => .arityMismatch (mismatch.mapName f)
  | .trailingInput text => .trailingInput (f text)

/-- Where no text changes, no error does. -/
theorem SyntaxError.mapText_id (error : SyntaxError) : error.mapText id = error := by
  rcases error with (_ | _) | _ | _ | _ | _ | _ | _ <;> rfl

end Calculator
