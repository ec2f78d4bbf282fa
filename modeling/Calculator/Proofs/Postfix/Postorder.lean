import Mathlib.Data.Set.List
import Calculator.Proofs.Evaluation.Invariant
import Calculator.Proofs.Postfix.Simulation
import Calculator.Proofs.Postfix.Weight

/-!
# Trees and their postfix order

Building a tree from entries and listing the nodes of a tree, operands first, undo each other. So a list
of entries has a tree exactly if it lists one, and then it is that one.
-/

namespace Calculator

/-- What a node of an expression says without its operands. -/
inductive Expr.Node where
  | literal (value : Float)
  | binary (operator : BinaryOperator) (token : Token)
  | unary (operator : UnaryOperator) (token : Token)
  | call (name : String) (position arguments : Nat)

namespace Expr

mutual

/-- The nodes, each one after those of its operands. -/
def postorder : Expr → List Node
  | literal value => [.literal value]
  | binary operator token left right => postorder left ++ postorder right ++ [.binary operator token]
  | unary operator token operand => postorder operand ++ [.unary operator token]
  | call name position arguments => postorderAll arguments ++ [.call name position arguments.length]

def postorderAll : List Expr → List Node
  | [] => []
  | e :: rest => postorder e ++ postorderAll rest

end

theorem postorderAll_append (list more : List Expr) :
    postorderAll (list ++ more) = postorderAll list ++ postorderAll more := by
  induction list with
  | nil => rfl
  | cons e list ih => rw [List.cons_append, postorderAll, ih, postorderAll, List.append_assoc]

/-- The nodes of operands on a stack, the deepest first. -/
theorem postorderAll_reverse_cons (e : Expr) (stack : List Expr) :
    postorderAll (e :: stack).reverse = postorderAll stack.reverse ++ postorder e := by
  rw [List.reverse_cons, postorderAll_append, postorderAll, postorderAll, List.append_nil]

end Expr

/-- The node that the entry becomes. A number without a value becomes none. -/
def PostfixEntry.node? : PostfixEntry → Option Expr.Node
  | number token => token.numericValue.toOption.map .literal
  | constant token => some (.call token.text token.position 0)
  | binary operator token => some (.binary operator token)
  | unary operator token => some (.unary operator token)
  | call token => some (.call token.text token.position token.argumentCount)

@[simp]
theorem PostfixEntry.node?_number {token : Token} {node : Expr.Node} :
    (number token).node? = some node ↔ ∃ value, token.numericValue = .ok value ∧ node = .literal value := by
  cases reads : token.numericValue <;> simp [node?, reads, Except.toOption, eq_comm]

namespace Postfix

open Calculator.Expr (Node postorder postorderAll postorderAll_append postorderAll_reverse_cons)

variable {entries : List PostfixEntry} {operands more : List Expr} {entry : PostfixEntry} {e : Expr}

/-- The entries are those of the tree, one for each node, operands first. -/
def Lists (entries : List PostfixEntry) (e : Expr) : Prop :=
  entries.map PostfixEntry.node? = e.postorder.map some

/-! ### From entries to the tree -/

/-- An entry adds its node to those of the operands. -/
theorem build_node (h : build operands entry = .ok more) :
    ∃ node, entry.node? = some node ∧ postorderAll more.reverse = postorderAll operands.reverse ++ [node] := by
  cases entry with
  | number token =>
    obtain ⟨value, reads, rfl⟩ := map_eq_ok.mp h
    exact ⟨.literal value, PostfixEntry.node?_number.mpr ⟨value, reads, rfl⟩, postorderAll_reverse_cons _ _⟩
  | constant token =>
    cases h
    exact ⟨_, rfl, postorderAll_reverse_cons _ _⟩
  | unary operator token =>
    cases operands with
    | nil => cases h
    | cons operand operands =>
      cases h
      refine ⟨_, rfl, ?_⟩
      simp only [postorderAll_reverse_cons, postorder, List.append_assoc]
  | binary operator token =>
    rcases operands with _ | ⟨right, _ | ⟨left, operands⟩⟩
    · cases h
    · cases h
    · cases h
      refine ⟨_, rfl, ?_⟩
      simp only [postorderAll_reverse_cons, postorder, List.append_assoc]
  | call token =>
    unfold build at h
    cases taken : take? token.argumentCount [] operands with
    | none => simp [taken, failAt] at h
    | some pair =>
      obtain ⟨arguments, rest⟩ := pair
      simp only [taken, Except.ok.injEq] at h
      subst h
      obtain ⟨front, rfl, rfl, count⟩ := take?_eq_some taken
      refine ⟨_, rfl, ?_⟩
      rw [List.append_nil, postorderAll_reverse_cons, postorder, List.reverse_append, postorderAll_append,
        List.length_reverse, count, List.append_assoc]

theorem foldlM_nodes (h : entries.foldlM build operands = .ok more) :
    ∃ nodes, entries.map PostfixEntry.node? = nodes.map some ∧
      postorderAll more.reverse = postorderAll operands.reverse ++ nodes := by
  induction entries generalizing operands with
  | nil =>
    cases h
    exact ⟨[], rfl, (List.append_nil _).symm⟩
  | cons entry entries ih =>
    rw [List.foldlM_cons] at h
    obtain ⟨next, built, h⟩ := bind_eq_ok.mp h
    obtain ⟨node, becomes, first⟩ := build_node built
    obtain ⟨nodes, same, others⟩ := ih h
    refine ⟨node :: nodes, by rw [List.map_cons, List.map_cons, becomes, same], ?_⟩
    rw [others, first, List.append_assoc, List.singleton_append]

theorem lists_of_toExpr (h : toExpr entries = .ok e) : Lists entries e := by
  obtain ⟨operands, built, last⟩ := bind_eq_ok.mp h
  obtain ⟨nodes, same, all⟩ := foldlM_nodes built
  rcases operands with _ | ⟨root, _ | ⟨second, operands⟩⟩
  · cases last
  · cases last
    have only : nodes = e.postorder := by simpa [postorderAll] using all.symm
    rw [Lists, same, only]
  · cases last

/-! ### From the tree to its entries -/

theorem map_eq_append_singleton {nodes : List Node} {node : Node}
    (h : entries.map PostfixEntry.node? = (nodes ++ [node]).map some) :
    ∃ before entry, entries = before ++ [entry] ∧ before.map PostfixEntry.node? = nodes.map some ∧
      entry.node? = some node := by
  rw [List.map_append, List.map_eq_append_iff] at h
  obtain ⟨before, last, rfl, same, lastSame⟩ := h
  obtain ⟨entry, rest, rfl, becomes, nothing⟩ := List.map_eq_cons_iff.mp lastSame
  cases List.map_eq_nil_iff.mp nothing
  exact ⟨before, entry, rfl, same, becomes⟩

/-- A name without arguments may be a constant or a call. -/
theorem entry_of_call {name : String} {position count : Nat} (h : entry.node? = some (.call name position count)) :
    ∃ token : Token, token.text = name ∧ token.position = position ∧
      (entry = .constant token ∧ count = 0 ∨ entry = .call token ∧ token.argumentCount = count) := by
  cases entry with
  | number => simp at h
  | constant token =>
    cases h
    exact ⟨token, rfl, rfl, .inl ⟨rfl, rfl⟩⟩
  | call token =>
    cases h
    exact ⟨token, rfl, rfl, .inr ⟨rfl, rfl⟩⟩
  | binary | unary => cases h

mutual

theorem builds_of_lists : ∀ (e : Expr) (entries : List PostfixEntry), Lists entries e → Builds entries [e]
  | .literal value, entries, h => by
    obtain ⟨before, entry, rfl, nothing, becomes⟩ := @map_eq_append_singleton entries [] _ h
    obtain ⟨token, rfl, reads⟩ : ∃ token, entry = .number token ∧ token.numericValue = .ok value := by
      cases entry with
      | number => simpa using becomes
      | _ => cases becomes
    cases List.map_eq_nil_iff.mp nothing
    exact builds_number reads
  | .binary operator token left right, entries, h => by
    -- The last entry is that of the root, and those before it list the operands.
    rw [Lists, postorder] at h
    obtain ⟨before, entry, rfl, inside, becomes⟩ := map_eq_append_singleton h
    obtain rfl : entry = .binary operator token := by cases entry <;> simp_all [PostfixEntry.node?]
    rw [List.map_append, List.map_eq_append_iff] at inside
    obtain ⟨first, second, rfl, l, r⟩ := inside
    exact builds_binary operator token (builds_append (builds_of_lists left first l) (builds_of_lists right second r))
  | .unary operator token operand, entries, h => by
    rw [Lists, postorder] at h
    obtain ⟨before, entry, rfl, inside, becomes⟩ := map_eq_append_singleton h
    obtain rfl : entry = .unary operator token := by cases entry <;> simp_all [PostfixEntry.node?]
    exact builds_unary operator token (builds_of_lists operand before inside)
  | .call name position arguments, entries, h => by
    rw [Lists, postorder] at h
    obtain ⟨before, entry, rfl, inside, becomes⟩ := map_eq_append_singleton h
    obtain ⟨token, rfl, rfl, ⟨rfl, none⟩ | ⟨rfl, count⟩⟩ := entry_of_call becomes
    · cases List.length_eq_zero_iff.mp none
      cases List.map_eq_nil_iff.mp inside
      exact builds_constant
    · exact builds_call token (builds_of_listsAll arguments before inside) count

theorem builds_of_listsAll : ∀ (list : List Expr) (entries : List PostfixEntry),
    entries.map PostfixEntry.node? = (postorderAll list).map some → Builds entries list
  | [], entries, h => by
    cases List.map_eq_nil_iff.mp h
    exact fun _ => rfl
  | e :: rest, entries, h => by
    rw [postorderAll, List.map_append, List.map_eq_append_iff] at h
    obtain ⟨first, others, rfl, l, r⟩ := h
    exact builds_append (builds_of_lists e first l) (builds_of_listsAll rest others r)

end

theorem toExpr_of_lists (h : Lists entries e) : toExpr entries = .ok e := by
  rw [toExpr, builds_of_lists e entries h []]
  rfl

theorem toExpr_eq_ok : toExpr entries = .ok e ↔ Lists entries e :=
  ⟨lists_of_toExpr, toExpr_of_lists⟩

/-! ### Which trees are listed -/

mutual

theorem literal_mem_postorder {value : Float} : ∀ e : Expr, .literal value ∈ e.postorder ↔ value ∈ e.literals
  | .literal _ => by simp [postorder, Expr.literals]
  | .binary _ _ left right => by
    simp [postorder, Expr.literals, literal_mem_postorder left, literal_mem_postorder right]
  | .unary _ _ operand => by simp [postorder, Expr.literals, literal_mem_postorder operand]
  | .call _ _ arguments => by simp [postorder, Expr.literals, literal_mem_postorderAll arguments]

theorem literal_mem_postorderAll {value : Float} :
    ∀ list : List Expr, .literal value ∈ postorderAll list ↔ value ∈ Expr.literalsAll list
  | [] => by simp [postorderAll, Expr.literalsAll]
  | e :: rest => by
    simp [postorderAll, Expr.literalsAll, literal_mem_postorder e, literal_mem_postorderAll rest]

end

/-- Every node but a literal comes from some entry, and a literal from every number with its value. -/
theorem exists_entry (node : Node)
    (literal : ∀ value, node = .literal value → ∃ token : Token, token.numericValue = .ok value) :
    ∃ entry : PostfixEntry, entry.node? = some node := by
  cases node with
  | literal value =>
    obtain ⟨token, reads⟩ := literal value rfl
    exact ⟨.number token, PostfixEntry.node?_number.mpr ⟨value, reads, rfl⟩⟩
  | binary operator token => exact ⟨.binary operator token, rfl⟩
  | unary operator token => exact ⟨.unary operator token, rfl⟩
  | call name position arguments =>
    exact ⟨.call { kind := .identifier, text := name, position, argumentCount := arguments }, rfl⟩

/-- A tree is listed if its literals are values of numbers. -/
theorem exists_lists (numbers : ∀ value ∈ e.literals, ∃ token : Token, token.numericValue = .ok value) :
    ∃ entries, Lists entries e := by
  have each : ∀ x ∈ e.postorder.map some, x ∈ Set.range PostfixEntry.node? := by
    intro x member
    obtain ⟨node, inside, rfl⟩ := List.mem_map.mp member
    refine exists_entry node ?_
    rintro value rfl
    exact numbers value ((literal_mem_postorder e).mp inside)
  have all : e.postorder.map some ∈ Set.range (List.map PostfixEntry.node?) := by
    rw [Set.range_list_map]
    exact each
  exact all

/-- Building a tree and listing its nodes undo each other: the entries that have a tree are those that
list one, and a tree whose literals are values of numbers is the tree of its entries. -/
theorem toExpr_inverts_postorder :
    (∀ entries e, toExpr entries = .ok e ↔ Lists entries e) ∧
      (∀ e : Expr, (∀ value ∈ e.literals, ∃ token : Token, token.numericValue = .ok value) →
        ∃ entries, Lists entries e ∧ toExpr entries = .ok e) ∧
      ∀ entries, (∃ e, toExpr entries = .ok e) ↔ ∃! e, Lists entries e := by
  refine ⟨fun entries e => toExpr_eq_ok, fun e numbers => ?_, fun entries => ⟨?_, ?_⟩⟩
  · obtain ⟨entries, lists⟩ := exists_lists numbers
    exact ⟨entries, lists, toExpr_of_lists lists⟩
  · rintro ⟨e, built⟩
    refine ⟨e, lists_of_toExpr built, fun other lists => ?_⟩
    have same : Except.ok other = Except.ok e := (toExpr_of_lists lists).symm.trans built
    exact Except.ok.inj same
  · rintro ⟨e, lists, -⟩
    exact ⟨e, toExpr_of_lists lists⟩

/-- `max(0x1F, -x)` -/
theorem toExpr_inverts_postorder_max :
    let number : Token := { kind := .number, text := "0x1F", position := 4, base := .hexadecimal }
    let sign : Token := { kind := .operator, text := "-", position := 10 }
    let x : Token := { kind := .identifier, text := "x", position := 11 }
    let max : Token := { kind := .identifier, text := "max", position := 0, argumentCount := 2 }
    let entries : List PostfixEntry := [.number number, .constant x, .unary .negate sign, .call max]
    let e : Expr := .call "max" 0 [.literal (Double.ofInt 31), .unary .negate sign (.call "x" 11 [])]
    (∀ value ∈ e.literals, ∃ token : Token, token.numericValue = .ok value) ∧
      (∃ entries, Lists entries e ∧ toExpr entries = .ok e) ∧ Lists entries e ∧ toExpr entries = .ok e := by
  intro number sign x max entries e
  have reads : number.numericValue = .ok (Double.ofInt 31) := by
    simp only [number]
    rfl
  have numbers : ∀ value ∈ e.literals, ∃ token : Token, token.numericValue = .ok value := by
    intro value member
    obtain rfl : value = Double.ofInt 31 := by simpa [e, Expr.literals, Expr.literalsAll] using member
    exact ⟨number, reads⟩
  have lists : Lists entries e := by
    simp [Lists, entries, e, postorder, postorderAll, PostfixEntry.node?, reads, Except.toOption, x, max]
  exact ⟨numbers, toExpr_inverts_postorder.2.1 e numbers, lists, (toExpr_inverts_postorder.1 entries e).mpr lists⟩

end Postfix

end Calculator
