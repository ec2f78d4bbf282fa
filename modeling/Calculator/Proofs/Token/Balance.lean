import Calculator.Proofs.Grammar.Basic
import Calculator.Token.Balance

/-!
# Derived lists are balanced
-/

namespace Calculator.Balance

variable {table : OperatorTable} {form : Form} {read rest : List Token} {e : Expr} {position depth : Nat}

theorem checkFrom_opening {token : Token} (kind : token.kind = .opening) :
    checkFrom position depth (token :: rest) = checkFrom position (depth + 1) rest := by
  simp [checkFrom, kind]

theorem checkFrom_closing {token : Token} (kind : token.kind = .closing) :
    checkFrom position (depth + 1) (token :: rest) = checkFrom position depth rest := by
  simp [checkFrom, kind]

theorem checkFrom_other {token : Token} (opening : token.kind ≠ .opening) (closing : token.kind ≠ .closing) :
    checkFrom position depth (token :: rest) = checkFrom position depth rest := by
  cases kind : token.kind <;> simp_all [checkFrom]

/-- Nothing is open after a derived list that was not open before it. -/
theorem checkFrom_derives (h : Derives table form read e) :
    checkFrom position depth (read ++ rest) = checkFrom position depth rest := by
  induction h using @Derives.rec table _ (fun read _ _ => ∀ depth rest,
    checkFrom position depth (read ++ rest) = checkFrom position depth rest) generalizing depth rest with
  | tighter _ _ _ ih | ofPower _ ih | ofPrimary _ ih | one _ ih => exact ih
  | operation _ _ means _ _ _ l r | power means _ _ _ l r =>
    rw [List.append_assoc, List.cons_append, l, checkFrom_other (by simp [means.1]) (by simp [means.1]), r]
  | more _ kind _ l r =>
    rw [List.append_assoc, List.cons_append, l, checkFrom_other (by simp [kind]) (by simp [kind]), r]
  | unary means _ ih => rw [List.cons_append, checkFrom_other (by simp [means.1]) (by simp [means.1]), ih]
  | number kind | constant kind => exact checkFrom_other (by simp [kind]) (by simp [kind])
  | emptyCall kind opens closes =>
    exact (checkFrom_other (by simp [kind]) (by simp [kind])).trans
      ((checkFrom_opening opens).trans (checkFrom_closing closes))
  | call kind opens closes _ ih =>
    rw [List.cons_append, List.cons_append, List.append_assoc, checkFrom_other (by simp [kind]) (by simp [kind]),
      checkFrom_opening opens, ih]
    exact checkFrom_closing closes
  | parenthesized opens closes _ ih =>
    rw [List.cons_append, List.append_assoc, checkFrom_opening opens, ih]
    exact checkFrom_closing closes

theorem checkFrom_stops (stop : ∀ token ∈ rest, token.kind = .endOfInput) : checkFrom position 0 rest = .ok () := by
  induction rest with
  | nil => rfl
  | cons token rest ih =>
    have kind := stop token List.mem_cons_self
    rw [checkFrom_other (by simp [kind]) (by simp [kind])]
    exact ih fun token member => stop token (List.mem_cons_of_mem _ member)

end Calculator.Balance
