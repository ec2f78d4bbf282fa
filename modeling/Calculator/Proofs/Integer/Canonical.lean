import Calculator.Proofs.Integer.Reading

/-!
# The canonical form of numerals

An integer that is written is read again as itself, and a numeral that is read is written in its canonical
form: in upper case, without leading zeros, and without a sign if it is zero.
-/

namespace Calculator

namespace Digit

variable {radix n d : Nat} {c : Char} {digits : List Char}

/-! ### Upper case -/

theorem toNat_of_ordinal (h : ordinal? c = some d) : c.toNat < 128 := by
  unfold ordinal? at h
  simp only [Char.isDigit, Char.isUpper, Char.isLower, Bool.and_eq_true, decide_eq_true_eq, UInt32.le_iff_toNat_le,
    ge_iff_le] at h
  have same : c.toNat = c.val.toNat := rfl
  have ends : '9'.val.toNat = 57 ∧ 'Z'.val.toNat = 90 ∧ 'z'.val.toNat = 122 := ⟨rfl, rfl, rfl⟩
  split at h
  · omega
  split at h
  · omega
  split at h
  · omega
  · cases h

/-- A digit is written in upper case, and only `0` has no value. -/
theorem ofValue_of_ordinal (h : ordinal? c = some d) : ofValue d = c.toUpper ∧ (d = 0 ↔ c = '0') := by
  have known : ∀ n < 128, ∀ d ∈ ordinal? (Char.ofNat n),
      ofValue d = (Char.ofNat n).toUpper ∧ (d = 0 ↔ Char.ofNat n = '0') := by decide
  have same := Char.ofNat_toNat c
  rw [← same] at h ⊢
  exact known c.toNat (toNat_of_ordinal (same ▸ h)) d h

theorem value?_eq_some : value? radix c = some d ↔ ordinal? c = some d ∧ d < radix := by
  simp [value?, Option.filter_eq_some_iff]

/-! ### Leading zeros -/

/-- The digits in upper case, without leading zeros. One zero is kept if there is nothing else. -/
def canonical (digits : List Char) : List Char :=
  match digits.dropWhile (· = '0') with
  | [] => ['0']
  | kept => kept.map Char.toUpper

theorem canonical_zero (digits : List Char) : canonical ('0' :: digits) = canonical digits := by
  rw [canonical, List.dropWhile_cons_of_pos (by decide), canonical]

theorem canonical_of_ne (other : c ≠ '0') (digits : List Char) :
    canonical (c :: digits) = (c :: digits).map Char.toUpper := by
  rw [canonical, List.dropWhile_cons_of_neg (by simpa using other)]

/-- Behind a number that is not zero, every digit is written. -/
theorem write_appendTo (low : 2 ≤ radix) (all : AllIn radix digits) (positive : 0 < n) :
    write radix (appendTo radix n digits) = write radix n ++ digits.map Char.toUpper := by
  induction digits generalizing n with
  | nil => exact (List.append_nil _).symm
  | cons c digits ih =>
    obtain ⟨first, rest⟩ := List.forall_mem_cons.mp all
    obtain ⟨d, value⟩ := Option.isSome_iff_exists.mp first
    obtain ⟨ordinal, small⟩ := value?_eq_some.mp value
    have large : radix ≤ n * radix + d := Nat.le_add_right_of_le (Nat.le_mul_of_pos_left radix positive)
    have quotient : (n * radix + d) / radix = n := by
      rw [Nat.mul_comm, Nat.mul_add_div (by omega), Nat.div_eq_of_lt small, Nat.add_zero]
    have remainder : (n * radix + d) % radix = d := by
      rw [Nat.mul_comm, Nat.mul_add_mod, Nat.mod_eq_of_lt small]
    rw [appendTo_cons value, ih rest (by omega), write_of_le low large, quotient, remainder,
      (ofValue_of_ordinal ordinal).1, List.map_cons, List.append_assoc]
    rfl

/-- The number that digits denote is written as their canonical form. -/
theorem write_number (low : 2 ≤ radix) (all : AllIn radix digits) :
    write radix (number radix digits) = canonical digits := by
  induction digits with
  | nil => exact write_of_lt (show 0 < radix by omega)
  | cons c digits ih =>
    obtain ⟨first, rest⟩ := List.forall_mem_cons.mp all
    obtain ⟨d, value⟩ := Option.isSome_iff_exists.mp first
    obtain ⟨ordinal, small⟩ := value?_eq_some.mp value
    obtain ⟨written, zero⟩ := ofValue_of_ordinal ordinal
    have next : number radix (c :: digits) = appendTo radix d digits := by
      rw [number, appendTo_cons value, Nat.zero_mul, Nat.zero_add]
    -- A leading zero leaves the number as it is, and behind any other digit all digits are written.
    by_cases none : d = 0
    · obtain rfl := zero.mp none
      subst none
      rw [next, canonical_zero]
      exact ih rest
    · rw [next, write_appendTo low rest (Nat.pos_of_ne_zero none), write_of_lt small, written,
        canonical_of_ne (fun same => none (zero.mpr same))]
      rfl

theorem write_eq_zero_iff (low : 2 ≤ radix) (high : radix ≤ 36) : write radix n = ['0'] ↔ n = 0 := by
  constructor
  · intro zero
    have value : value? radix '0' = some 0 := value?_eq_some.mpr ⟨rfl, by omega⟩
    rw [← number_write low high n, zero]
    simp [number, appendTo, value]
  · rintro rfl
    exact write_of_lt (by omega)

end Digit

namespace Integer

variable {radix : Nat} {text : List Char} {n : Int} {value : Int64}

/-- A numeral in its canonical form: the digits are, and zero has no sign. -/
def canonical : List Char → List Char
  | '-' :: digits =>
    let kept := Digit.canonical digits
    if kept = ['0'] then kept else '-' :: kept
  | digits => Digit.canonical digits

theorem canonical_unsigned (all : Digit.AllIn radix text) : canonical text = Digit.canonical text := by
  unfold canonical
  split
  next => exact absurd rfl (ne_minus all)
  next => rfl

/-- The canonical form is what is written for the integer. -/
theorem Denotes.canonical (low : 2 ≤ radix) (high : radix ≤ 36) (denotes : Denotes radix text n) :
    canonical text = signText (n < 0) ++ Digit.write radix n.natAbs := by
  cases denotes with
  | @signed negative digits filled all =>
    have written := Digit.write_number (by omega) all
    have zero := Digit.write_eq_zero_iff (n := Digit.number radix digits) low high
    cases negative with
    | false =>
      have unsigned : ¬ (Digit.number radix digits : Int) < 0 := by omega
      simp only [signText, unsigned, decide_false, Bool.false_eq_true, if_false, List.nil_append, Int.natAbs_natCast]
      rw [written, canonical_unsigned all]
    | true =>
      have sign : -(Digit.number radix digits : Int) < 0 ↔ Digit.canonical digits ≠ ['0'] := by
        rw [← written, ne_eq, zero]
        omega
      have form : canonical ('-' :: digits) =
          if Digit.canonical digits = ['0'] then Digit.canonical digits else '-' :: Digit.canonical digits := rfl
      simp only [signText, if_true, Int.natAbs_neg, Int.natAbs_natCast, sign, written]
      rw [List.singleton_append, form]
      by_cases zero : Digit.canonical digits = ['0'] <;> simp [zero]

theorem write_eq (low : 2 ≤ radix) (high : radix ≤ 36) (value : Int64) : Integer.write value radix =
    .ok (String.ofList (signText (value.toInt < 0) ++ Digit.write radix value.toInt.natAbs)) := by
  have known : checkRadix radix = .ok () := if_pos ⟨low, high⟩
  have sign : decide (value < 0) = decide (value.toInt < 0) := decide_eq_decide.mpr Int64.lt_iff_toInt_lt
  unfold Integer.write
  rw [known, ok_bind, signOf_eq, sign, magnitudeText, ← String.ofList_append]
  rfl

theorem denotes_write (low : 2 ≤ radix) (high : radix ≤ 36) (n : Int) :
    Denotes radix (signText (n < 0) ++ Digit.write radix n.natAbs) n := by
  have denotes := Denotes.signed (n < 0) (Digit.write_ne_nil low n.natAbs) (Digit.allIn_write low high n.natAbs)
  have same : (if n < 0 then -(n.natAbs : Int) else n.natAbs) = n := by omega
  simp only [Digit.number_write low high, decide_eq_true_eq, same] at denotes
  exact denotes

/-- What is written for an integer of 64 bits is read as that integer, and for what is read the canonical
form of the text is written. -/
theorem canonical_numerals (radix : Nat) (low : 2 ≤ radix) (high : radix ≤ 36) :
    (∀ value, ∃ text, Integer.write value radix = .ok text ∧ Integer.read text radix = .ok value) ∧
      ∀ text value, Integer.read text radix = .ok value →
        Integer.write value radix = .ok (String.ofList (canonical text.toList)) := by
  constructor
  · intro value
    refine ⟨_, write_eq low high value, ?_⟩
    have denotes := denotes_write low high value.toInt
    rw [← String.toList_ofList (l := signText _ ++ _)] at denotes
    rw [(denotes.read low high).1 (fits_toInt value), Int64.ofInt_toInt]
  · intro text value read
    rw [write_eq low high, (denotes_of_read low high read).canonical low high]

/-- In base 36 the least integer is written and read, and `-00z` is written as `-Z`, but `-00` as `0`. -/
theorem canonical_numerals_thirty_six :
    2 ≤ 36 ∧ 36 ≤ 36 ∧
      (∃ text, Integer.write Int64.minValue 36 = .ok text ∧ Integer.read text 36 = .ok Int64.minValue) ∧
      Integer.read "-00z" 36 = .ok (-35) ∧ Integer.write (-35) 36 = .ok "-Z" ∧
      Integer.read "-00" 36 = .ok 0 ∧ Integer.write 0 36 = .ok "0" := by
  obtain ⟨back, forth⟩ := canonical_numerals 36 (by decide) (by decide)
  have letter : Integer.read "-00z" 36 = .ok (-35) := rfl
  have zero : Integer.read "-00" 36 = .ok 0 := rfl
  exact ⟨by decide, by decide, back _, letter, forth _ _ letter, zero, forth _ _ zero⟩

end Integer

end Calculator
