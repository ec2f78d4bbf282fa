import Calculator.Proofs.Postfix.Postorder

/-!
# Size and height

The walk over an expression counts its nodes and finds the deepest of them, whichever subtree it visits
next. A tree that is built from entries has one node for each of them.
-/

namespace Calculator.Expr

variable {e : Expr} {nodes deepest : Nat} {pending others : List (Expr × Nat)} {result : Nat × Nat}

/-! ### The walk -/

theorem height_pos (e : Expr) : 0 < e.height := by
  cases e <;> simp [height]

theorem height_eq (e : Expr) : e.height = heightAll e.operands + 1 := by
  cases e <;> simp [height, heightAll, operands]

/-- The depth of the deepest node in the pending subtrees. -/
def deepestOf : List (Expr × Nat) → Nat
  | [] => 0
  | (e, depth) :: pending => max (depth + e.height - 1) (deepestOf pending)

theorem deepestOf_append (xs ys : List (Expr × Nat)) : deepestOf (xs ++ ys) = max (deepestOf xs) (deepestOf ys) := by
  induction xs with
  | nil => simp [deepestOf]
  | cons x xs ih => rw [List.cons_append, deepestOf, ih, deepestOf, Nat.max_assoc]

theorem deepestOf_below (depth : Nat) (list : List Expr) :
    max depth (deepestOf (list.map (·, depth + 1))) = depth + heightAll list := by
  induction list with
  | nil => simp [deepestOf, heightAll]
  | cons e rest ih =>
    have := e.height_pos
    rw [List.map_cons, deepestOf, heightAll]
    omega

theorem shapeFrom_eq (nodes deepest : Nat) (pending : List (Expr × Nat)) :
    shapeFrom nodes deepest pending = (nodes + sizeAll (pending.map Prod.fst), max deepest (deepestOf pending)) := by
  fun_induction shapeFrom nodes deepest pending with
  | case1 => simp [sizeAll, deepestOf]
  | case2 nodes deepest e depth pending ih =>
    have below := deepestOf_below depth e.operands
    rw [ih, List.map_append, List.map_map, sizeAll_append,
      deepestOf_append, List.map_cons, sizeAll, deepestOf, size_eq e,
      height_eq e]
    simp only [Function.comp_def, List.map_id', Prod.mk.injEq]
    omega

/-- The walk counts the nodes and finds the height. -/
theorem shape_eq (e : Expr) : e.shape = (e.size, e.height) := by
  have := e.height_pos
  simp only [shape, shapeFrom_eq, List.map_cons, List.map_nil, sizeAll, deepestOf, Prod.mk.injEq]
  omega

/-! ### In any order -/

theorem sizeAll_perm {list others : List Expr} (h : list.Perm others) : sizeAll list = sizeAll others := by
  induction h with
  | nil => rfl
  | cons e _ ih => rw [sizeAll, sizeAll, ih]
  | swap e f list =>
    simp only [sizeAll]
    omega
  | trans _ _ first second => exact first.trans second

theorem deepestOf_perm (h : pending.Perm others) : deepestOf pending = deepestOf others := by
  induction h with
  | nil => rfl
  | cons e _ ih => rw [deepestOf, deepestOf, ih]
  | swap e f pending =>
    simp only [deepestOf]
    omega
  | trans _ _ first second => exact first.trans second

theorem shapeFrom_perm (h : pending.Perm others) :
    shapeFrom nodes deepest pending = shapeFrom nodes deepest others := by
  rw [shapeFrom_eq, shapeFrom_eq, sizeAll_perm (h.map Prod.fst), deepestOf_perm h]

/-- What a walk finds that visits the pending subtrees in some order: any of them may be the next. -/
inductive Visits : Nat → Nat → List (Expr × Nat) → Nat × Nat → Prop
  | done (nodes deepest : Nat) : Visits nodes deepest [] (nodes, deepest)
  | next {nodes deepest depth : Nat} {e : Expr} {pending others : List (Expr × Nat)} {result : Nat × Nat}
      (taken : pending.Perm ((e, depth) :: others))
      (rest : Visits (nodes + 1) (max deepest depth) (e.operands.map (·, depth + 1) ++ others) result) :
      Visits nodes deepest pending result

theorem Visits.result_eq (h : Visits nodes deepest pending result) : result = shapeFrom nodes deepest pending := by
  induction h with
  | done => rw [shapeFrom]
  | next taken _ ih =>
    -- What is found does not depend on the order, so the subtree that was taken may as well be the first.
    rw [ih, shapeFrom_perm taken, shapeFrom]

theorem visits_shapeFrom (nodes deepest : Nat) (pending : List (Expr × Nat)) :
    Visits nodes deepest pending (shapeFrom nodes deepest pending) := by
  fun_induction shapeFrom nodes deepest pending with
  | case1 nodes deepest => exact .done nodes deepest
  | case2 nodes deepest e depth pending ih => exact .next (.refl _) ih

theorem visits_iff : Visits nodes deepest pending result ↔ result = shapeFrom nodes deepest pending := by
  refine ⟨Visits.result_eq, ?_⟩
  rintro rfl
  exact visits_shapeFrom nodes deepest pending

/-! ### Entries -/

mutual

theorem length_postorder : ∀ e : Expr, e.postorder.length = e.size
  | literal _ => rfl
  | binary _ _ left right => by
    simp [postorder, size, length_postorder left, length_postorder right, Nat.add_assoc]
  | unary _ _ operand => by simp [postorder, size, length_postorder operand]
  | call _ _ arguments => by simp [postorder, size, length_postorderAll arguments]

theorem length_postorderAll : ∀ list : List Expr, (postorderAll list).length = sizeAll list
  | [] => rfl
  | e :: rest => by simp [postorderAll, sizeAll, length_postorder e, length_postorderAll rest]

end

theorem length_of_lists {entries : List PostfixEntry} (h : Postfix.Lists entries e) : entries.length = e.size := by
  have lengths := congrArg List.length h
  rwa [List.length_map, List.length_map, length_postorder] at lengths

/-- The walk finds the number of nodes and the height of an expression, and so does a walk in any other
order. There are as many nodes as there are entries from which the expression is built. -/
theorem shape_counts_nodes (e : Expr) :
    e.shape = (e.size, e.height) ∧
      (∀ result, Visits 0 0 [(e, 1)] result ↔ result = (e.size, e.height)) ∧
      ∀ entries, Postfix.toExpr entries = .ok e → e.shape.1 = entries.length := by
  refine ⟨shape_eq e, fun result => ?_, fun entries built => ?_⟩
  · rw [visits_iff, ← shape_eq, shape]
  · rw [shape_eq, length_of_lists (Postfix.lists_of_toExpr built)]

/-- The tree of `a + (b + c) * max(0x1F, -d)` has ten nodes, and `d` is the fifth from the root. -/
theorem shape_counts_nodes_product :
    let name (text : String) (position : Nat) : Token := { kind := .identifier, text, position }
    let symbol (text : String) (position : Nat) : Token := { kind := .operator, text, position }
    let number : Token := { kind := .number, text := "0x1F", position := 18, base := .hexadecimal }
    let max : Token := { name "max" 14 with argumentCount := 2 }
    let entries : List PostfixEntry := [.constant (name "a" 0), .constant (name "b" 5), .constant (name "c" 9),
      .binary .add (symbol "+" 7), .number number, .constant (name "d" 25), .unary .negate (symbol "-" 24), .call max,
      .binary .multiply (symbol "*" 12), .binary .add (symbol "+" 2)]
    let e := binary .add (symbol "+" 2) (call "a" 0 []) (binary .multiply (symbol "*" 12)
      (binary .add (symbol "+" 7) (call "b" 5 []) (call "c" 9 []))
      (call "max" 14 [literal (Double.ofInt 31), unary .negate (symbol "-" 24) (call "d" 25 [])]))
    Postfix.toExpr entries = .ok e ∧ e.shape = (10, 5) ∧
      Visits 0 0 [(e, 1)] (10, 5) ∧ e.shape.1 = entries.length := by
  intro name symbol number max entries e
  have reads : number.numericValue = .ok (Double.ofInt 31) := by
    simp only [number]
    rfl
  have built : Postfix.toExpr entries = .ok e := by
    apply Postfix.toExpr_of_lists
    simp [Postfix.Lists, entries, e, postorder, postorderAll, PostfixEntry.node?, reads, Except.toOption, name, max]
  obtain ⟨shape, visits, count⟩ := shape_counts_nodes e
  exact ⟨built, shape, (visits (10, 5)).mpr rfl, count entries built⟩

end Calculator.Expr
