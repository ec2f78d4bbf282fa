import Calculator.Proofs.Double.Integers
import Calculator.Proofs.Mode
import Calculator.Proofs.Parser.Signed
import Calculator.Proofs.Token.Lexeme

/-!
# Integers that a mode shows

What the programmer's mode shows for an integer of 64 bits is read as that integer again, but for the
digits of the least one in another base than ten.
-/

namespace Calculator

open Token (Scans)
open Evaluation (calculate)

variable {kind : ParserKind} {context : Context} {base : NumberBase}

/-! ### Numerals -/

/-- The digits of a number behind the mark of the base. -/
def NumberBase.numeral (base : NumberBase) (n : Nat) : List Char :=
  base.mark.toList ++ Digit.write base.radix n

theorem denotes_write (n : Nat) : Decimal.Denotes (Digit.write 10 n) n 0 := by
  have digits := Digit.ofDigits_write n
  have denotes := Decimal.Denotes.whole ⟨Digit.write_ne_nil (by decide) n, digits.1⟩ .none
  rwa [List.append_nil, digits.2] at denotes

theorem mark_eq (other : base ≠ .decimal) :
    ∃ mark, NumberBase.ofMark? mark = some base ∧ base.mark.toList = ['0', mark] := by
  cases base with
  | decimal => exact absurd rfl other
  | binary => exact ⟨'b', rfl, rfl⟩
  | octal => exact ⟨'o', rfl, rfl⟩
  | hexadecimal => exact ⟨'x', rfl, rfl⟩

theorem isNumber_numeral (base : NumberBase) (n : Nat) : Lexeme.IsNumber base (base.numeral n) := by
  obtain ⟨low, high⟩ := base.radix_bounds
  by_cases other : base = .decimal
  · subst other
    exact .decimal (denotes_write n)
  · obtain ⟨mark, marks, same⟩ := mark_eq other
    rw [NumberBase.numeral, same]
    exact .marked marks (Digit.write_ne_nil low n) (Digit.allIn_write low high n)

def Token.ofNumeral (base : NumberBase) (n position : Nat) : Token :=
  { kind := .number, text := String.ofList (base.numeral n), position, base }

/-- A numeral is read as its number, but in another base than ten only up to 63 bits. -/
theorem numericValue_ofNumeral (base : NumberBase) (n position : Nat) : (Token.ofNumeral base n position).numericValue =
    if base = .decimal ∨ n < 2 ^ 63 then .ok (Double.ofInt n)
    else failAt position (.unreadableLiteral (String.ofList (base.numeral n))
      (.tooWide (String.ofList (Digit.write base.radix n)))) := by
  by_cases other : base = .decimal
  · subst other
    have read := (denotes_write n).read
    rw [Double.ofDecimal_eq_ofInt] at read
    have reads : Decimal.read? (Token.ofNumeral .decimal n position).text.toList = some (Double.ofInt n) := by
      rw [Token.ofNumeral, String.toList_ofList]
      exact read
    rw [if_pos (.inl rfl), Token.numericValue]
    simp only [reads]
    rfl
  · obtain ⟨low, high⟩ := base.radix_bounds
    obtain ⟨mark, marks, same⟩ := mark_eq other
    have spelled : (Token.ofNumeral base n position).text.toList = '0' :: mark :: Digit.write base.radix n := by
      rw [Token.ofNumeral, String.toList_ofList, NumberBase.numeral, same]
      rfl
    have value :=
      @Token.numericValue_marked (Token.ofNumeral base n position) mark _ rfl marks (Digit.write_ne_nil low n)
        (Digit.allIn_write low high n) spelled
    have number : Digit.number (Token.ofNumeral base n position).base.radix (Digit.write base.radix n) = n :=
      Digit.number_write low high n
    rw [value, number]
    simp only [other, false_or]
    rfl

theorem visible_numeral (base : NumberBase) (n : Nat) : ∀ c ∈ (base.numeral n).head?, Text.isBlank c = false := by
  intro c head
  by_cases other : base = .decimal
  · subst other
    exact Text.isBlank_of_isDigit ((Digit.ofDigits_write n).1 c (List.mem_of_mem_head? head))
  · obtain ⟨mark, -, same⟩ := mark_eq other
    rw [NumberBase.numeral, same] at head
    obtain rfl : '0' = c := by simpa using head
    exact Text.isBlank_of_isDigit rfl

theorem scans_numeral (base : NumberBase) (n position : Nat) : ∃ next,
    Scans position (base.numeral n) [Token.ofNumeral base n position] next [] := by
  have scans := @Token.scans_spelled [] _ (.number (isNumber_numeral base n)) (visible_numeral base n) position nofun
  rw [List.append_nil] at scans
  exact ⟨_, scans⟩

/-- A numeral alone is read as its number. -/
theorem calculate_numeral (context : Context) (kind : ParserKind) (base : NumberBase) (n : Nat) :
    calculate context kind (String.ofList (base.numeral n)) = (Token.ofNumeral base n 0).numericValue := by
  obtain ⟨last, scansNumber⟩ := scans_numeral base n 0
  have scans : Scans 0 (String.ofList (base.numeral n)).toList [.ofNumeral base n 0] last [] := by
    rwa [String.toList_ofList]
  rw [calculate, ParserKind.convert_of_scan kind (Token.scan_of_scans scans) (by simp [Token.isStop, Token.ofNumeral])]
  show (kind.parse _ [_, _] >>= fun _ => _) = _
  rw [ParserKind.parse_number kind rfl]
  cases Token.numericValue _ <;> rfl

/-! ### Shown integers -/

theorem toList_display (value : Int64) (base : NumberBase) : (Integer.display value base).toList =
    Integer.signText (value < 0) ++ base.numeral value.toInt.natAbs := by
  rw [Integer.display, Integer.signOf_eq, String.toList_append, String.toList_append, String.toList_ofList,
    Integer.magnitudeText, String.toList_ofList, List.append_assoc]
  rfl

/-- A shown integer is read as its numeral, and negated if it is negative. -/
theorem calculate_display (kind : ParserKind) (means : context.table.unary? "-" = some .negate) (value : Int64)
    (base : NumberBase) :
    ∃ position, calculate context kind (Integer.display value base) =
      (Token.ofNumeral base value.toInt.natAbs position).numericValue.map fun x => if value < 0 then -x else x := by
  have shown := toList_display value base
  by_cases negative : value < 0
  · obtain ⟨sign, next, operator, text, scansSign⟩ :=
      Token.scans_symbol (Token.isSymbol_unary .negate) 0 (base.numeral value.toInt.natAbs)
    obtain ⟨last, scansNumber⟩ := scans_numeral base value.toInt.natAbs next
    have scans : Scans 0 (Integer.display value base).toList
        [sign, .ofNumeral base value.toInt.natAbs next] last [] := by
      rw [shown, Integer.signText, if_pos (decide_eq_true negative)]
      exact scansSign.trans scansNumber
    have unary : context.table.IsUnary sign .negate := ⟨operator, by rw [text]; exact means⟩
    refine ⟨next, ?_⟩
    rw [calculate, ParserKind.convert_of_scan kind (Token.scan_of_scans scans) (by simp [Token.isStop, operator])]
    show (kind.parse _ [sign, _, _] >>= fun _ => _) = _
    rw [ParserKind.parse_unary kind unary rfl]
    simp only [if_pos negative]
    cases Token.numericValue _ <;> rfl
  · refine ⟨0, ?_⟩
    have numeral : Integer.display value base = String.ofList (base.numeral value.toInt.natAbs) := by
      rw [← String.ofList_toList (s := Integer.display value base), shown, Integer.signText,
        if_neg (by simpa using negative), List.nil_append]
    rw [numeral, calculate_numeral]
    simp only [if_neg negative]
    cases Token.numericValue _ <;> rfl

theorem natAbs_lt {value : Int64} (least : value ≠ Int64.minValue) : value.toInt.natAbs < 2 ^ 63 := by
  have low : -2 ^ 63 ≤ value.toInt := Int64.le_toInt value
  have high : value.toInt < 2 ^ 63 := Int64.toInt_lt value
  have other : value.toInt ≠ -2 ^ 63 := fun same => least (Int64.toInt_inj.mp same)
  omega

theorem natAbs_lt_overflow (value : Int64) : value.toInt.natAbs < Double.overflow :=
  (Double.isFinite_ofInt _).mp (Double.isFinite_ofInt64 value)

theorem ofInt_natAbs (value : Int64) :
    (if value < 0 then -Double.ofInt value.toInt.natAbs else Double.ofInt value.toInt.natAbs) =
      Double.ofInt value.toInt := by
  have small := natAbs_lt_overflow value
  by_cases negative : value < 0
  · have below : value.toInt < 0 := Int64.lt_iff_toInt_lt.mp negative
    have same : -(value.toInt.natAbs : Int) = value.toInt := by omega
    have nonzero : (value.toInt.natAbs : Int) ≠ 0 := by omega
    rw [if_pos negative, Double.neg_ofInt nonzero small, same]
  · have above : 0 ≤ value.toInt := Int.not_lt.mp fun below => negative (Int64.lt_iff_toInt_lt.mpr below)
    have same : (value.toInt.natAbs : Int) = value.toInt := by omega
    rw [if_neg negative, same]

theorem calculate_display_of_fits (means : context.table.unary? "-" = some .negate) {value : Int64}
    (fits : base = .decimal ∨ value ≠ Int64.minValue) :
    calculate context kind (Integer.display value base) = .ok (Double.ofInt value.toInt) := by
  obtain ⟨position, calculated⟩ := calculate_display kind means value base
  rw [calculated, numericValue_ofNumeral, if_pos (fits.imp_right natAbs_lt), ← ofInt_natAbs]
  rfl

/-- The least integer has a magnitude of 64 bits, which only a decimal number may have. -/
theorem calculate_display_least (kind : ParserKind) (means : context.table.unary? "-" = some .negate)
    (other : base ≠ .decimal) :
    ∃ failure, calculate context kind (Integer.display Int64.minValue base) = .error failure ∧
      failure.category = .numericOverflow := by
  obtain ⟨position, calculated⟩ := calculate_display kind means Int64.minValue base
  have wide : ¬ (base = .decimal ∨ Int64.minValue.toInt.natAbs < 2 ^ 63) := not_or.mpr ⟨other, by decide⟩
  rw [calculated, numericValue_ofNumeral, if_neg wide]
  exact ⟨_, rfl, rfl⟩

/-! ### Modes that show integers -/

theorem ofRadix_of_supported {radix : Nat} (supported : radix ∈ Mode.supportedRadices) :
    ∃ base : NumberBase, NumberBase.ofRadix radix = .ok base ∧ (base = .decimal ↔ radix = 10) := by
  simp only [Mode.supportedRadices, List.mem_cons, List.not_mem_nil, or_false] at supported
  rcases supported with rfl | rfl | rfl | rfl
  · exact ⟨.binary, rfl, by decide⟩
  · exact ⟨.octal, rfl, by decide⟩
  · exact ⟨.decimal, rfl, by decide⟩
  · exact ⟨.hexadecimal, rfl, by decide⟩

theorem checkValue_ofInt (mode : Mode) {n : Int} (small : n.natAbs < Double.overflow) :
    mode.checkValue (Double.ofInt n) = .ok (Double.ofInt n) := by
  rw [Mode.checkValue, Double.hasFraction_ofInt small, Bool.and_false, if_neg Bool.false_ne_true]

theorem formatValue_ofInt {mode : Mode} {value : Int64} (other : mode.displayBase ≠ .decimal)
    (exact : ∃ x, Double.Represents x value.toInt) :
    mode.formatValue (Double.ofInt value.toInt) = .ok (mode.formatInteger value) := by
  have small := natAbs_lt_overflow value
  have converted := (Double.represents_ofInt small exact).toInt64?_eq
  rw [if_pos ⟨Int64.le_toInt value, Int64.toInt_lt value⟩, Int64.ofInt_toInt] at converted
  rw [Mode.formatValue, if_neg other, checkValue_ofInt mode small, ok_bind, converted]
  rfl

/-- What the programmer's mode shows for an integer of 64 bits is evaluated in the same mode to the double
that the integer is converted to. Only the least integer is too wide for that in another base than ten. An
integer that is a double is shown alike when it is a result, in another base than ten. -/
theorem shown_integers_evaluate (kind : ParserKind) (radix : Nat) (supported : radix ∈ Mode.supportedRadices)
    (value : Int64) :
    ∃ mode, ((Mode.ofFlavour .programmer).setParser kind).setDisplayBase radix = .ok mode ∧
      (¬ (value = Int64.minValue ∧ radix ≠ 10) →
        mode.evaluate (mode.formatInteger value) = .ok (Double.ofInt value.toInt)) ∧
      (value = Int64.minValue ∧ radix ≠ 10 →
        ∃ failure, mode.evaluate (mode.formatInteger value) = .error failure ∧
          failure.category = .numericOverflow) ∧
      (radix ≠ 10 → (∃ x, Double.Represents x value.toInt) →
        mode.formatValue (Double.ofInt value.toInt) = .ok (mode.formatInteger value)) := by
  obtain ⟨base, found, decimal⟩ := ofRadix_of_supported supported
  let mode : Mode := { (Mode.ofFlavour .programmer).setParser kind with displayBase := base }
  have means : mode.context.table.unary? "-" = some .negate := by
    show Flavour.programmer.context.table.unary? "-" = some .negate
    rw [Flavour.programmer_table]
    rfl
  have set : ((Mode.ofFlavour .programmer).setParser kind).setDisplayBase radix = .ok mode := by
    show (NumberBase.ofRadix radix).map _ = _
    rw [found]
    rfl
  have evaluated text : mode.evaluate text = calculate mode.context kind text >>= mode.checkValue := rfl
  refine ⟨mode, set, fun fits => ?_, fun least => ?_, fun other => formatValue_ofInt (decimal.not.mpr other)⟩
  · have fits : base = .decimal ∨ value ≠ Int64.minValue := by
      rw [decimal]
      by_cases ten : radix = 10
      · exact .inl ten
      · exact .inr fun least => fits ⟨least, ten⟩
    rw [evaluated, Mode.formatInteger, calculate_display_of_fits means fits, ok_bind,
      checkValue_ofInt mode (natAbs_lt_overflow value)]
  · obtain ⟨rfl, other⟩ := least
    obtain ⟨failure, calculated, category⟩ := calculate_display_least kind means (decimal.not.mpr other)
    refine ⟨failure, ?_, category⟩
    rw [evaluated, Mode.formatInteger, calculated, error_bind]

/-- In base sixteen, `-0xFF` is shown for -255 and evaluated to it, and the least integer cannot be read. -/
theorem shown_integers_evaluate_hexadecimal :
    ∃ mode, (Mode.ofFlavour .programmer).setDisplayBase 16 = .ok mode ∧ 16 ∈ Mode.supportedRadices ∧
      mode.formatInteger (-255) = "-0xFF" ∧ mode.evaluate "-0xFF" = .ok (-255) ∧
        mode.formatValue (-255) = .ok "-0xFF" ∧
      mode.formatInteger Int64.minValue = "-0x8000000000000000" ∧
      ∃ failure, mode.evaluate "-0x8000000000000000" = .error failure ∧ failure.category = .numericOverflow := by
  have supported : 16 ∈ Mode.supportedRadices := by decide
  obtain ⟨mode, set, evaluated, -, shown⟩ := shown_integers_evaluate .shuntingYard 16 supported (-255)
  obtain ⟨mode', set', -, least, -⟩ := shown_integers_evaluate .shuntingYard 16 supported Int64.minValue
  have text : mode.formatInteger (-255) = "-0xFF" := by
    cases set
    cbv
  have leastText : mode'.formatInteger Int64.minValue = "-0x8000000000000000" := by
    cases set'
    cbv
  have value : Double.ofInt (-255 : Int64).toInt = -255 := rfl
  have exact : ∃ x, Double.Represents x (-255 : Int64).toInt :=
    ⟨_, Double.represents_of_digits (natAbs_lt_overflow _) (k := 255) (a := 0) (by decide) (by decide)⟩
  have other : (-255 : Int64) ≠ Int64.minValue := by decide
  obtain rfl : mode = mode' := Except.ok.inj (set.symm.trans set')
  rw [text, value] at evaluated shown
  rw [leastText] at least
  exact ⟨mode, set, supported, text,
    evaluated fun h => other h.1, shown (by decide) exact, leastText, least ⟨rfl, by decide⟩⟩

end Calculator
