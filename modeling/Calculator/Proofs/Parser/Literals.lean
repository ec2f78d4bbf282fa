import Calculator.Proofs.Double.Overflow
import Calculator.Proofs.Evaluation.Invariant
import Calculator.Proofs.Parser
import Calculator.Proofs.Token.Nesting
import Calculator.Proofs.Token.Value

/-!
# Literals of an accepted text

The literals of a tree are the values of the number tokens that it was parsed from, in their order. They are finite,
but for decimal numerals beyond the largest double.
-/

namespace Calculator

open Double (overflow)

variable {table : OperatorTable} {form : Form} {tokens : List Token} {token : Token} {e : Expr}

namespace Token

def values (tokens : List Token) : List (Except Failure Float) :=
  (tokens.filter isNumber).map numericValue

theorem values_append (left right : List Token) : values (left ++ right) = values left ++ values right := by
  rw [values, List.filter_append, List.map_append]
  rfl

theorem values_cons (other : token.kind ≠ .number) (rest : List Token) : values (token :: rest) = values rest := by
  have skipped : ¬ token.isNumber = true := fun number => other (of_decide_eq_true number)
  rw [values, List.filter_cons_of_neg skipped]
  rfl

theorem values_of_none (none : ∀ token ∈ tokens, token.kind ≠ .number) : values tokens = [] := by
  induction tokens with
  | nil => rfl
  | cons token rest ih =>
    rw [values_cons (none token List.mem_cons_self)]
    exact ih fun token member => none token (List.mem_cons_of_mem _ member)

/-- The token is a decimal numeral whose nearest double is infinite. -/
def Overflows (token : Token) : Prop :=
  token.base = .decimal ∧
    ∃ m e, Decimal.Denotes token.text.toList m e ∧ overflow * 10 ^ (-e).toNat ≤ m * 10 ^ e.toNat

/-- The token is a number in another base that does not fit in 64 bits. -/
def IsTooWide (token : Token) : Prop :=
  ∃ mark digits, NumberBase.ofMark? mark = some token.base ∧ token.text.toList = '0' :: mark :: digits ∧
    2 ^ 63 ≤ Digit.number token.base.radix digits

end Token

theorem Derives.values (h : Derives table form tokens e) : Token.values tokens = e.literals.map .ok := by
  induction h using
    @Derives.rec table _ (fun tokens list _ => Token.values tokens = (Expr.literalsAll list).map .ok) with
  | tighter _ _ _ ih | ofPower _ ih | ofPrimary _ ih => exact ih
  | operation _ _ means _ _ _ l r | power means _ _ _ l r =>
    rw [Token.values_append, Token.values_cons (by simp [means.1]), l, r, Expr.literals, List.map_append]
  | unary means _ ih => rw [Token.values_cons (by simp [means.1]), ih, Expr.literals]
  | number kind reads => simp [Token.values, Token.isNumber, kind, reads, Expr.literals]
  | constant kind => exact Token.values_of_none (by simp [kind])
  | emptyCall kind opens closes => exact Token.values_of_none (by simp [kind, opens, closes])
  | call kind opens closes _ ih =>
    rw [Token.values_cons (by simp [kind]), Token.values_cons (by simp [opens]), Token.values_append, ih,
      Token.values_of_none (by simp [closes]), List.append_nil, Expr.literals]
  | parenthesized opens closes _ ih =>
    rw [Token.values_cons (by simp [opens]), Token.values_append, ih, Token.values_of_none (by simp [closes]),
      List.append_nil]
  | one _ ih =>
    rw [ih, Expr.literalsAll, Expr.literalsAll, List.append_nil]
  | more _ kind _ l r =>
    rw [Token.values_append, Token.values_cons (by simp [kind]), l, r, Expr.literalsAll, List.map_append]

/-! ### Values of the numbers in a text -/

namespace Token

variable {text : String}

theorem Overflows.value (overflows : token.Overflows) (number : token.isNumber = true) :
    token.numericValue = .ok Double.infinity := by
  obtain ⟨base, m, e, denotes, large⟩ := overflows
  have read := denotes.read
  rw [Double.ofDecimal_of_overflow large] at read
  unfold numericValue
  simp only [number, base, read]
  rfl

theorem isFinite_infinity : Double.infinity.isFinite = false := by
  decide +kernel

theorem IsTooWide.base (wide : token.IsTooWide) : token.base ≠ .decimal := by
  obtain ⟨mark, digits, marks, -⟩ := wide
  exact ne_decimal_of_mark marks

theorem value_of_scan (scanned : scan text = .ok tokens) (member : token ∈ tokens) (number : token.isNumber = true) :
    (token.Overflows ∧ token.numericValue = .ok Double.infinity) ∨
      (token.IsTooWide ∧ ∃ failure, token.numericValue = .error failure ∧ failure.category = .numericOverflow ∧
        failure.position = token.position) ∨
        (¬ token.Overflows ∧ ¬ token.IsTooWide ∧ ∃ x, token.numericValue = .ok x ∧ x.isFinite = true) := by
  have means := numericValue_means scanned member number
  generalize outcome : token.numericValue = result at means
  cases means with
  | @decimal m e base denotes =>
    by_cases large : overflow * 10 ^ (-e).toNat ≤ m * 10 ^ e.toNat
    · rw [Double.ofDecimal_of_overflow large]
      exact .inl ⟨⟨base, m, e, denotes, large⟩, rfl⟩
    · have finite := (Double.isFinite_ofDecimal m e).mpr (Nat.not_le.mp large)
      refine .inr (.inr ⟨fun overflows => ?_, fun wide => wide.base base, _, rfl, finite⟩)
      have same : Except.ok (Double.ofDecimal m e) = Except.ok Double.infinity :=
        outcome.symm.trans (overflows.value number)
      rw [Except.ok.inj same, isFinite_infinity] at finite
      cases finite
  | @integer mark digits marks spelled fits =>
    have base := ne_decimal_of_mark marks
    have room : 2 ^ 63 ≤ overflow := by decide +kernel
    have finite := (Double.isFinite_ofInt (Digit.number token.base.radix digits)).mpr (Nat.lt_of_lt_of_le fits room)
    refine .inr (.inr ⟨fun overflows => base overflows.1, ?_, _, rfl, finite⟩)
    rintro ⟨mark', digits', -, spelled', wide⟩
    rw [spelled] at spelled'
    cases spelled'
    exact Nat.not_lt.mpr wide fits
  | @tooWide mark digits marks spelled wide =>
    exact .inr (.inl ⟨⟨mark, digits, marks, spelled, wide⟩, _, rfl, rfl, rfl⟩)

end Token

namespace ParserKind

variable {kind : ParserKind} {text : String}

theorem values_of_parse (scanned : Token.scan text = .ok tokens) (h : kind.parse table tokens = .ok e) :
    Token.values tokens = e.literals.map .ok := by
  obtain ⟨-, -, derived⟩ := parse_sound kind h
  obtain ⟨rest, same, stop⟩ := Descent.body_append_of_stopsLast (stopsLast_of_scan scanned)
  rw [same, Token.values_append, derived.values, Token.values_of_none, List.append_nil]
  exact fun token member => by simp [stop token member]

theorem convert_number {last : Nat} {x : Float} (scanned : Token.scan text = .ok [token, .stop last])
    (number : token.kind = .number) (reads : token.numericValue = .ok x) :
    kind.convert table text = .ok (.literal x) := by
  have derived : Derives table (.expression 1) [token] (.literal x) :=
    (Derives.number number reads).expression (Nat.le_refl _) (by decide)
  have filled : ¬ [token, .stop last].all Token.isStop = true := by simp [Token.isStop, number]
  unfold convert
  rw [scanned, ok_bind, if_neg filled]
  have alone : Descent.body [token, .stop last] = [token] := @body_of_scan [token] text last scanned
  rw [parse_eq_ok kind (stopsLast_of_scan scanned), alone]
  have short : [token, Token.stop last].length ≤ maxNesting := Nat.le_of_ble_eq_true rfl
  refine ⟨Nesting.check_of_short short, ?_, derived⟩
  apply (Adjacency.checkFrom_other (by simp [number]) (by simp [number])).mpr
  exact (Adjacency.checkFrom_other (by simp [Token.stop]) (by simp [Token.stop])).mpr rfl

/-- The literals of an accepted text are the values of its numbers. A number that is too large is infinite in decimal
notation, and reported as an overflow at its place in another base; every other number is finite. -/
theorem literals_finite_or_overflow (kind : ParserKind) (table : OperatorTable) (text : String) (tokens : List Token)
    (scanned : Token.scan text = .ok tokens) :
    (∀ e, kind.convert table text = .ok e → Token.values tokens = e.literals.map .ok) ∧
      ∀ token ∈ tokens, token.isNumber = true →
        (token.Overflows ∧ token.numericValue = .ok Double.infinity) ∨
          (token.IsTooWide ∧ ∃ failure, token.numericValue = .error failure ∧
            failure.category = .numericOverflow ∧
            failure.position = token.position) ∨
            (¬ token.Overflows ∧ ¬ token.IsTooWide ∧
              ∃ x, token.numericValue = .ok x ∧ x.isFinite = true) := by
  constructor
  · intro e h
    obtain ⟨others, scanned', parsed⟩ := parse_of_convert h
    rw [scanned] at scanned'
    cases scanned'
    exact values_of_parse scanned parsed
  · exact fun token member number => Token.value_of_scan scanned member number

/-- `0x1F` -/
theorem literals_finite_of_mark :
    let token : Token := { kind := .number, text := "0x1F", position := 0, base := .hexadecimal }
    let tokens : List Token := [token, .stop 4]
    Token.scan "0x1F" = .ok tokens ∧
      recursiveDescent.convert .arithmetic "0x1F" = .ok (.literal (Double.ofInt 31)) ∧
        Token.values tokens = [.ok (Double.ofInt 31)] ∧ (Double.ofInt 31).isFinite = true := by
  intro token tokens
  have read : Lexeme.read 0 '0' ['x', '1', 'F'] = .ok ⟨.number, .hexadecimal, "0x1F".toList⟩ := rfl
  have scanned : Token.scan "0x1F" = .ok tokens := Token.scan_lexeme (Text.isBlank_of_isDigit rfl) read rfl
  have all : Digit.AllIn 16 ['1', 'F'] := List.all_eq_true.mp rfl
  have reads : token.numericValue = .ok (Double.ofInt 31) :=
    @Token.numericValue_marked token 'x' ['1', 'F'] rfl rfl nofun all (by decide)
  have converted : recursiveDescent.convert .arithmetic "0x1F" = .ok (.literal (Double.ofInt 31)) :=
    convert_number scanned rfl reads
  have known := literals_finite_or_overflow .recursiveDescent .arithmetic "0x1F" tokens scanned
  refine ⟨scanned, converted, known.1 _ converted, ?_⟩
  rcases known.2 token List.mem_cons_self rfl with
    ⟨overflows, -⟩ | ⟨-, failure, none, -⟩ | ⟨-, -, x, value, finite⟩
  · cases overflows.1
  · rw [reads] at none
    cases none
  · rw [reads] at value
    cases value
    exact finite

/-- `1e400` becomes an infinite literal. -/
theorem literals_not_finite : ¬ ∀ (kind : ParserKind) (table : OperatorTable) (text : String) (e : Expr),
    kind.convert table text = .ok e → ∀ x ∈ e.literals, x.isFinite = true := by
  intro finite
  let token : Token := { kind := .number, text := "1e400", position := 0 }
  have read : Lexeme.read 0 '1' ['e', '4', '0', '0'] = .ok ⟨.number, .decimal, "1e400".toList⟩ := rfl
  have scanned : Token.scan "1e400" = .ok [token, .stop 5] := Token.scan_lexeme (Text.isBlank_of_isDigit rfl) read rfl
  have digits : Decimal.IsDigits ['4', '0', '0'] := ⟨nofun, List.all_eq_true.mp rfl⟩
  have one : Decimal.IsDigits ['1'] := ⟨nofun, List.all_eq_true.mp rfl⟩
  have denotes : Decimal.Denotes "1e400".toList 1 400 := .whole one (.some (.inl rfl) List.mem_cons_self digits)
  have reads : token.numericValue = .ok Double.infinity :=
    Token.Overflows.value ⟨rfl, 1, 400, denotes, by decide +kernel⟩ rfl
  have converted : recursiveDescent.convert .arithmetic "1e400" = .ok (.literal Double.infinity) :=
    convert_number scanned rfl reads
  have same := finite .recursiveDescent .arithmetic "1e400" _ converted Double.infinity List.mem_cons_self
  rw [Token.isFinite_infinity] at same
  cases same

end ParserKind

end Calculator
