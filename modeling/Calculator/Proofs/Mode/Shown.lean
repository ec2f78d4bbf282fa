import Calculator.Proofs.Double.Fractions
import Calculator.Proofs.Mode.Integers

/-!
# Values that a mode can show

A value is checked before a mode returns it, so that it can be shown. In base ten every value can. In another base the
check lets through the integers, of which those of 64 bits can be shown.
-/

namespace Calculator

namespace Mode

/-- The modes that a new one can be changed into. Its context may become any other. -/
inductive Reached : Mode → Prop
  | new (flavour : Flavour) : Reached (.ofFlavour flavour)
  | parser {mode : Mode} (kind : ParserKind) (reached : Reached mode) : Reached (mode.setParser kind)
  | context {mode : Mode} (context : Context) (reached : Reached mode) : Reached { mode with context }
  | displayBase {mode changed : Mode} {radix : Nat} (reached : Reached mode)
      (set : mode.setDisplayBase radix = .ok changed) : Reached changed

variable {mode changed : Mode}

theorem flavour_setDisplayBase {radix : Nat} (set : mode.setDisplayBase radix = .ok changed) :
    changed.flavour = mode.flavour ∧
      (mode.flavour ≠ .programmer → changed.displayBase = mode.displayBase) := by
  unfold setDisplayBase at set
  split at set
  next programmer =>
    obtain ⟨base, -, rfl⟩ := map_eq_ok.mp set
    exact ⟨rfl, fun other => absurd programmer other⟩
  next =>
    split at set <;> cases set
    exact ⟨rfl, fun _ => rfl⟩

/-- No other mode than a programmer's shows results in another base than ten. -/
theorem Reached.decimal (reached : mode.Reached) (other : mode.flavour ≠ .programmer) :
    mode.displayBase = .decimal := by
  induction reached with
  | new => rfl
  | parser _ _ ih | context _ _ ih => exact ih other
  | displayBase _ set ih =>
    obtain ⟨same, kept⟩ := flavour_setDisplayBase set
    rw [same] at other
    rw [kept other, ih other]

theorem checkValue_eq_ok {value result : Float} (h : mode.checkValue value = .ok result) :
    result = value ∧ (mode.displayBase ≠ .decimal → Double.hasFraction value = false) := by
  unfold checkValue at h
  split at h
  · cases h
  next whole =>
    cases h
    refine ⟨rfl, fun other => ?_⟩
    simpa [other] using whole

theorem formatValue_of_checked {value : Float} {n : Int} (other : mode.displayBase ≠ .decimal)
    (checked : mode.checkValue value = .ok value) (integer : Double.Represents value n) :
    mode.formatValue value =
      if -2 ^ 63 ≤ n ∧ n < 2 ^ 63 then .ok (mode.formatInteger (Int64.ofInt n))
      else .error { cause := .overflow } := by
  rw [formatValue, if_neg other, checked, ok_bind, integer.toInt64?_eq]
  by_cases fits : -2 ^ 63 ≤ n ∧ n < 2 ^ 63
  · rw [if_pos fits, if_pos fits]
    rfl
  · rw [if_neg fits, if_neg fits]
    rfl

/-! ### The least integer that does not fit -/

/-- It passes the check of every mode. -/
theorem evaluate_wide (mode : Mode) : mode.evaluate "9223372036854775808" = .ok (Double.ofInt (2 ^ 63)) := by
  have small : ((2 : Int) ^ 63).natAbs < Double.overflow := by decide +kernel
  have text : String.ofList (NumberBase.decimal.numeral (2 ^ 63)) = "9223372036854775808" := by cbv
  have calculated := calculate_numeral mode.context mode.parser .decimal (2 ^ 63)
  rw [text, numericValue_ofNumeral, if_pos (.inl rfl)] at calculated
  rw [evaluate, calculated, ok_bind]
  exact checkValue_ofInt mode small

theorem formatValue_wide (other : mode.displayBase ≠ .decimal) :
    mode.formatValue (Double.ofInt (2 ^ 63)) = .error { cause := .overflow } := by
  have small : ((2 : Int) ^ 63).natAbs < Double.overflow := by decide +kernel
  have integer : Double.Represents (Double.ofInt (2 ^ 63)) (2 ^ 63) :=
    Double.represents_of_digits small (k := 1) (a := 63) (by decide) (by decide)
  rw [formatValue_of_checked other (checkValue_ofInt mode small) integer]
  rfl

/-! ### Values that are shown -/

/-- A value that a mode returns is shown in base ten. Another base shows only a programmer's mode, which
returns integers there; those that do not fit in 64 bits are returned but not shown. -/
theorem evaluated_shown_unless_wide (mode : Mode) (reached : mode.Reached) (text : String) (value : Float)
    (evaluated : mode.evaluate text = .ok value) :
    (mode.displayBase = .decimal ∧
        mode.formatValue value = .ok (Display.formatValue value mode.context.precision)) ∨
      (mode.flavour = .programmer ∧ mode.displayBase ≠ .decimal ∧ ∃ n : Int, Double.Represents value n ∧
        mode.formatValue value =
          if -2 ^ 63 ≤ n ∧ n < 2 ^ 63 then .ok (Integer.display (Int64.ofInt n) mode.displayBase)
          else .error { cause := .overflow }) := by
  by_cases decimal : mode.displayBase = .decimal
  · exact .inl ⟨decimal, by rw [formatValue, if_pos decimal]⟩
  have programmer : mode.flavour = .programmer :=
    Decidable.byContradiction fun other => decimal (reached.decimal other)
  obtain ⟨result, -, checked⟩ := bind_eq_ok.mp evaluated
  obtain ⟨rfl, whole⟩ := checkValue_eq_ok checked
  obtain ⟨n, integer⟩ := Double.represents_of_whole (whole decimal)
  exact .inr ⟨programmer, decimal, n, integer, formatValue_of_checked decimal checked integer⟩

/-- In base sixteen, 2 ^ 63 is returned as an integer that is not shown. -/
theorem evaluated_shown_unless_wide_hexadecimal :
    ∃ mode, (ofFlavour .programmer).setDisplayBase 16 = .ok mode ∧ mode.Reached ∧
      mode.evaluate "9223372036854775808" = .ok (Double.ofInt (2 ^ 63)) ∧
        ∃ n : Int, Double.Represents (Double.ofInt (2 ^ 63)) n ∧ ¬ (-2 ^ 63 ≤ n ∧ n < 2 ^ 63) ∧
          mode.formatValue (Double.ofInt (2 ^ 63)) = .error { cause := .overflow } := by
  let mode : Mode := { ofFlavour .programmer with displayBase := .hexadecimal }
  have set : (ofFlavour .programmer).setDisplayBase 16 = .ok mode := rfl
  have reached : mode.Reached := .displayBase (.new .programmer) set
  refine ⟨mode, set, reached, evaluate_wide mode, ?_⟩
  rcases evaluated_shown_unless_wide mode reached _ _ (evaluate_wide mode) with
    ⟨decimal, -⟩ | ⟨-, other, n, integer, shown⟩
  · cases decimal
  · rw [formatValue_wide other] at shown
    refine ⟨n, integer, fun fits => ?_, formatValue_wide other⟩
    rw [if_pos fits] at shown
    cases shown

/-- A value can be returned and not be shown. -/
theorem evaluated_not_shown : ¬ ∀ (mode : Mode) (text : String) (value : Float), mode.Reached →
    mode.evaluate text = .ok value → ∃ shown, mode.formatValue value = .ok shown := by
  intro shows
  let mode : Mode := { ofFlavour .programmer with displayBase := .hexadecimal }
  have set : (ofFlavour .programmer).setDisplayBase 16 = .ok mode := rfl
  obtain ⟨shown, same⟩ := shows mode _ _ (.displayBase (.new .programmer) set) (evaluate_wide mode)
  have other : mode.displayBase ≠ .decimal := by simp [mode]
  rw [formatValue_wide other] at same
  cases same

end Mode

end Calculator
