import Calculator.Postfix.Tree
import Calculator.Proofs.Failure
import Calculator.Proofs.Postfix.Moves

/-!
# The reordering of derived lists

A derived list is reordered into entries from which its tree is built.
-/

namespace Calculator

namespace Postfix

/-- The entries build their trees on top of the operands that are there already. -/
def Builds (entries : List PostfixEntry) (list : List Expr) : Prop :=
  ∀ operands, entries.foldlM build operands = .ok (list.reverse ++ operands)

variable {entries others : List PostfixEntry} {e left right : Expr} {list more : List Expr} {token : Token}

theorem builds_append (h : Builds entries list) (h' : Builds others more) :
    Builds (entries ++ others) (list ++ more) := by
  intro operands
  rw [List.foldlM_append, h operands, ok_bind, h' (list.reverse ++ operands), List.reverse_append,
    List.append_assoc]

theorem builds_number {value : Float} (reads : token.numericValue = .ok value) :
    Builds [.number token] [.literal value] := by
  intro operands
  simp [build, reads]
  rfl

theorem builds_constant : Builds [.constant token] [.call token.text token.position []] := fun _ => rfl

theorem builds_unary (operator : UnaryOperator) (token : Token) (h : Builds entries [e]) :
    Builds (entries ++ [.unary operator token]) [.unary operator token e] := by
  intro operands
  rw [List.foldlM_append, h operands]
  rfl

theorem builds_binary (operator : BinaryOperator) (token : Token) (h : Builds entries [left, right]) :
    Builds (entries ++ [.binary operator token]) [.binary operator token left right] := by
  intro operands
  rw [List.foldlM_append, h operands]
  rfl

theorem take?_append {taken operands : List Expr} :
    take? list.length taken (list ++ operands) = some (list.reverse ++ taken, operands) := by
  induction list generalizing taken with
  | nil => rfl
  | cons e list ih => rw [List.length_cons, List.cons_append, take?, ih]; simp

theorem builds_call (token : Token) (h : Builds entries list) (count : token.argumentCount = list.length) :
    Builds (entries ++ [.call token]) [.call token.text token.position list] := by
  intro operands
  rw [List.foldlM_append, h operands, ok_bind, List.foldlM_cons, build, count, ← List.length_reverse, take?_append]
  simp

end Postfix

namespace Yard

variable {table : OperatorTable} {form : Form} {read : List Token} {e : Expr}

/-- From any yard that tokens of the form do not move, they are read up to operators that wait on the stack. -/
def Reorders (table : OperatorTable) (form : Form) (read : List Token) (e : Expr) : Prop :=
  ∀ previous stack output rest, Token.opensOperand previous = true → Guards form.least stack →
    (∀ next ∈ rest.head?, next.kind ≠ .opening) →
      ∃ pending entries, Waits form.least pending ∧
        run table previous ⟨stack, output⟩ (read ++ rest) =
          run table read.getLast? ⟨pending ++ stack, entries.reverse ++ output⟩ rest ∧
        Postfix.Builds (entries ++ pending.filterMap Pending.entry?) [e]

/-- The same for arguments, which are read inside a parenthesis that counts the commas between them. -/
def ReordersAll (table : OperatorTable) (read : List Token) (list : List Expr) : Prop :=
  ∀ previous opening commas stack output rest, Token.opensOperand previous = true →
    (∀ next ∈ rest.head?, next.kind ≠ .opening) →
      ∃ pending entries more, Waits 1 pending ∧ list.length = more + 1 ∧
        run table previous ⟨.parenthesis opening true commas :: stack, output⟩ (read ++ rest) =
          run table read.getLast?
            ⟨pending ++ .parenthesis opening true (commas + more) :: stack, entries.reverse ++ output⟩ rest ∧
        Postfix.Builds (entries ++ pending.filterMap Pending.entry?) list

namespace Reorders

variable {before after : List Token} {left right : Expr} {token name opening closing : Token} {list : List Expr}

/-- Two operands and an operator between them, at which the first one is complete. -/
theorem binary {f g : Form} {operator : BinaryOperator} (means : table.IsBinary token operator)
    (l : Derives table f before left) (r : Derives table g after right) (first : Reorders table f before left)
    (second : Reorders table g after right)
    (applied : operator.precedence < f.least ∨ operator.precedence = f.least ∧ f.least < tightest)
    (bound : form.least ≤ operator.precedence) (stays : operator.precedence < g.least ∨ g.least = tightest)
    (outer : form.least ≤ f.least) (inner : form.least ≤ g.least) :
    Reorders table form (before ++ token :: after) (.binary operator token left right) := by
  intro previous stack output rest place guards next
  obtain ⟨pending, entries, waits, same, builds⟩ :=
    first previous stack output (token :: (after ++ rest)) place (guards.mono outer) (by simp [means.1])
  obtain ⟨pending', entries', waits', same', builds'⟩ :=
    second (some token) (.binary operator token :: stack)
      ((pending.filterMap Pending.entry?).reverse ++ (entries.reverse ++ output)) rest
      (Token.opensOperand_after (by simp [means.1])) (guards_binary stays) next
  refine ⟨pending' ++ [.binary operator token], entries ++ pending.filterMap Pending.entry? ++ entries', ?_, ?_, ?_⟩
  · refine waits_append.mpr ⟨waits'.mono inner, ?_⟩
    simpa [Waits, Pending.precedence?] using bound
  · rw [List.append_assoc, List.cons_append, same, run_binary means (Token.opensOperand_of_ends l.last_ends),
      binary_eq waits applied guards bound, same', getLast?_append_cons r.ne_nil]
    simp
  · have := Postfix.builds_binary operator token (Postfix.builds_append builds builds')
    simpa [Pending.entry?] using this

theorem operation {n : Nat} {operator : BinaryOperator} (upper : n < tightest) (means : table.IsBinary token operator)
    (binds : operator.precedence = n) (l : Derives table (.expression n) before left)
    (r : Derives table (.expression (n + 1)) after right) (first : Reorders table (.expression n) before left)
    (second : Reorders table (.expression (n + 1)) after right) :
    Reorders table (.expression n) (before ++ token :: after) (.binary operator token left right) := by
  refine binary means l r first second (.inr ⟨binds, upper⟩) (Nat.le_of_eq binds.symm) (.inl ?_) ?_ ?_
  · rw [Form.least]; omega
  · exact Nat.le_refl _
  · exact Nat.le_succ _

theorem power {operator : BinaryOperator} (means : table.IsBinary token operator)
    (binds : operator.precedence = tightest)
    (b : Derives table .primary before left) (x : Derives table (.expression tightest) after right)
    (base : Reorders table .primary before left) (exponent : Reorders table (.expression tightest) after right) :
    Reorders table .power (before ++ token :: after) (.binary operator token left right) := by
  refine binary means b x base exponent (.inl ?_) (Nat.le_of_eq binds.symm) (.inr rfl) ?_ ?_
  · rw [binds, Form.least]; omega
  · exact Nat.le_succ _
  · exact Nat.le_refl _

/-- What is moved by fewer operators also has a form that may be moved by more. -/
theorem mono {f : Form} (h : Reorders table f read e) (le : form.least ≤ f.least) : Reorders table form read e := by
  intro previous stack output rest place guards next
  obtain ⟨pending, entries, waits, same, builds⟩ := h previous stack output rest place (guards.mono le) next
  exact ⟨pending, entries, waits.mono le, same, builds⟩

theorem unary {operator : UnaryOperator} (means : table.IsUnary token operator)
    (derived : Derives table (.expression tightest) read e) (h : Reorders table (.expression tightest) read e) :
    Reorders table (.expression tightest) (token :: read) (.unary operator token e) := by
  intro previous stack output rest place guards next
  obtain ⟨pending, entries, waits, same, builds⟩ := h (some token) (.unary operator token :: stack) output rest
    (Token.opensOperand_after (by simp [means.1])) guards_unary next
  refine ⟨pending ++ [.unary operator token], entries, waits_append.mpr ⟨waits, ?_⟩, ?_, ?_⟩
  · simp [Waits, Pending.precedence?, Form.least, UnaryOperator.precedence]
  · rw [List.cons_append, run_unary means place]
    simpa [push, List.getLast?_cons_of_ne_nil derived.ne_nil] using same
  · simpa [Pending.entry?] using Postfix.builds_unary operator token builds

theorem number {value : Float} (kind : token.kind = .number) (reads : token.numericValue = .ok value) :
    Reorders table .primary [token] (.literal value) := by
  intro previous stack output rest place guards next
  exact ⟨[], [.number token], waits_nil, run_number kind, Postfix.builds_number reads⟩

theorem constant (kind : token.kind = .identifier) :
    Reorders table .primary [token] (.call token.text token.position []) := by
  intro previous stack output rest place guards next
  exact ⟨[], [.constant token], waits_nil, run_constant kind next, Postfix.builds_constant⟩

theorem emptyCall (kind : name.kind = .identifier)
    (opens : opening.kind = .opening) (closes : closing.kind = .closing) :
    Reorders table .primary [name, opening, closing] (.call name.text name.position []) := by
  intro previous stack output rest place guards next
  have nothing : Postfix.Builds [] [] := fun _ => rfl
  refine ⟨[], [.call { name with argumentCount := 0 }], waits_nil, ?_, Postfix.builds_call _ nothing rfl⟩
  rw [show [name, opening, closing] ++ rest = name :: opening :: closing :: rest from rfl, run_call kind opens]
  exact run_closing_empty closes opens

theorem call (kind : name.kind = .identifier) (opens : opening.kind = .opening) (closes : closing.kind = .closing)
    (derived : DerivesAll table read list) (h : ReordersAll table read list) :
    Reorders table .primary (name :: opening :: (read ++ [closing])) (.call name.text name.position list) := by
  intro previous stack output rest place guards next
  obtain ⟨pending, entries, more, waits, length, same, builds⟩ :=
    h (some opening) opening 0 (.call name :: stack) output (closing :: rest)
      (Token.opensOperand_after (by simp [opens])) (by simp [closes])
  refine ⟨[], entries ++ pending.filterMap Pending.entry? ++ [.call { name with argumentCount := more + 1 }],
    waits_nil, ?_, ?_⟩
  · rw [List.cons_append, List.cons_append, List.append_assoc, run_call kind opens]
    apply same.trans
    rw [Nat.zero_add, run_closing_call closes waits derived.last_ends]
    simp [List.getLast?_cons]
  · simpa using Postfix.builds_call { name with argumentCount := more + 1 } builds length.symm

theorem parenthesized (opens : opening.kind = .opening) (closes : closing.kind = .closing)
    (derived : Derives table (.expression 1) read e) (h : Reorders table (.expression 1) read e) :
    Reorders table .primary (opening :: (read ++ [closing])) e := by
  intro previous stack output rest place guards next
  obtain ⟨pending, entries, waits, same, builds⟩ := h (some opening) (.parenthesis opening false 0 :: stack) output
    (closing :: rest) (Token.opensOperand_after (by simp [opens])) guards_parenthesis (by simp [closes])
  refine ⟨[], entries ++ pending.filterMap Pending.entry?, waits_nil, ?_, by simpa using builds⟩
  rw [List.cons_append, List.append_assoc, run_opening opens (not_identifier_of_opens place)]
  apply same.trans
  rw [run_closing closes waits derived.last_ends]
  simp [List.getLast?_cons]

theorem one (h : Reorders table (.expression 1) read e) : ReordersAll table read [e] := by
  intro previous opening commas stack output rest place next
  obtain ⟨pending, entries, waits, same, builds⟩ := h previous _ output rest place guards_parenthesis next
  exact ⟨pending, entries, 0, waits, rfl, same, builds⟩

theorem more {comma : Token} (derived : Derives table (.expression 1) before e) (kind : comma.kind = .comma)
    (derivedAll : DerivesAll table after list) (h : Reorders table (.expression 1) before e)
    (others : ReordersAll table after list) : ReordersAll table (before ++ comma :: after) (e :: list) := by
  intro previous opening commas stack output rest place next
  obtain ⟨pending, entries, waits, same, builds⟩ := h previous (.parenthesis opening true commas :: stack) output
    (comma :: (after ++ rest)) place guards_parenthesis (by simp [kind])
  obtain ⟨pending', entries', more, waits', length, same', builds'⟩ :=
    others (some comma) opening (commas + 1) stack
      ((pending.filterMap Pending.entry?).reverse ++ (entries.reverse ++ output)) rest
      (Token.opensOperand_after (by simp [kind])) next
  refine ⟨pending', entries ++ pending.filterMap Pending.entry? ++ entries', more + 1, waits', by simp [length],
    ?_, ?_⟩
  · have opens : (after ++ rest).head?.any Adjacency.opensOperand = true := by
      rw [List.head?_append]
      exact any_or_left derivedAll.head_opens
    rw [List.append_assoc, List.cons_append, same, run_comma kind waits derived.last_ends opens, same',
      getLast?_append_cons derivedAll.ne_nil, show commas + 1 + more = commas + (more + 1) by omega]
    simp
  · simpa using Postfix.builds_append builds builds'

end Reorders

theorem run_derives (h : Derives table form read e) : Reorders table form read e := by
  induction h using @Derives.rec table _ (fun read list _ => ReordersAll table read list) with
  | operation _ upper means binds l r first second => exact first.operation upper means binds l r second
  | tighter _ _ _ h => exact h.mono (Nat.le_succ _)
  | unary means derived h => exact h.unary means derived
  | ofPower _ h => exact h
  | ofPrimary _ h => exact h.mono (Nat.le_succ _)
  | power means binds b x base exponent => exact base.power means binds b x exponent
  | number kind reads => exact .number kind reads
  | constant kind => exact .constant kind
  | emptyCall kind opens closes => exact .emptyCall kind opens closes
  | call kind opens closes derived h => exact .call kind opens closes derived h
  | parenthesized opens closes derived h => exact h.parenthesized opens closes derived
  | one _ h => exact h.one
  | more derived kind derivedAll h others => exact h.more derived kind derivedAll others

end Yard

/-- The postfix order of a derived list is that of its tree. -/
theorem Postfix.toExpr_of_derives {table : OperatorTable} {read rest : List Token} {e : Expr}
    (h : Derives table (.expression 1) read e) (stop : ∀ token ∈ rest.head?, token.kind = .endOfInput) :
    ∃ entries, ofTokens table (read ++ rest) = .ok entries ∧ toExpr entries = .ok e := by
  have next : ∀ token ∈ rest.head?, token.kind ≠ .opening := fun token head => by simp [stop token head]
  obtain ⟨pending, entries, waits, same, builds⟩ := Yard.run_derives h none [] [] rest rfl Yard.guards_nil next
  refine ⟨entries ++ pending.filterMap Pending.entry?, ?_, ?_⟩
  · rw [ofTokens, Yard.start, same, Yard.run_stop stop, List.append_nil, List.append_nil, Except.bind,
      Yard.finish_waits waits, List.reverse_reverse]
  · rw [toExpr, builds []]
    rfl

end Calculator
