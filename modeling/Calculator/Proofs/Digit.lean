import Calculator.Decimal.Reading
import Calculator.Digit

/-!
# Digits and the numbers they denote

The digits that are written for a number denote it, in every radix from 2 to 36.
-/

namespace Calculator

namespace Digit

def AllIn (radix : Nat) (digits : List Char) : Prop :=
  ∀ c ∈ digits, (value? radix c).isSome = true

/-- The number that digits denote after a beginning that denotes `n`. -/
def appendTo (radix n : Nat) (digits : List Char) : Nat :=
  digits.foldl (fun n c => n * radix + (value? radix c).getD 0) n

/-- The number that digits denote, with the most significant one first. -/
def number (radix : Nat) (digits : List Char) : Nat :=
  appendTo radix 0 digits

theorem le_appendTo {radix : Nat} (positive : 0 < radix) (n : Nat) (digits : List Char) :
    n ≤ appendTo radix n digits := by
  induction digits generalizing n with
  | nil => exact Nat.le_refl n
  | cons c digits ih =>
    calc n ≤ n * radix := Nat.le_mul_of_pos_right n positive
      _ ≤ n * radix + (value? radix c).getD 0 := Nat.le_add_right _ _
      _ ≤ appendTo radix n (c :: digits) := ih _

variable {radix n d : Nat} {digits : List Char}

theorem appendTo_cons {c : Char} (value : value? radix c = some d) :
    appendTo radix n (c :: digits) = appendTo radix (n * radix + d) digits := by
  rw [appendTo, List.foldl_cons, value]
  rfl

theorem number_concat (digits : List Char) (c : Char) :
    number radix (digits ++ [c]) = number radix digits * radix + (value? radix c).getD 0 := by
  rw [number, appendTo, List.foldl_append]
  rfl

theorem value?_ofValue (small : d < radix) (high : radix ≤ 36) : value? radix (ofValue d) = some d := by
  have known : ∀ d < 36, ordinal? (ofValue d) = some d := by decide
  rw [value?, known d (Nat.lt_of_lt_of_le small high)]
  simp [small]

/-! ### Writing -/

theorem writeOnto_eq (radix : Nat) (tail : List Char) (n : Nat) : writeOnto radix tail n = write radix n ++ tail := by
  unfold write
  induction n using Nat.strongRecOn generalizing tail with
  | _ n ih =>
    rw [writeOnto]
    conv => rhs; rw [writeOnto]
    split
    next => rfl
    next large =>
      have less : n / radix < n := Nat.div_lt_self (by omega) (by omega)
      rw [ih _ less, ih _ less [_], List.append_assoc]
      rfl

theorem write_of_lt (small : n < radix) : write radix n = [ofValue n] := by
  rw [write, writeOnto, if_pos (.inr small)]

theorem write_of_le (low : 2 ≤ radix) (large : radix ≤ n) :
    write radix n = write radix (n / radix) ++ [ofValue (n % radix)] := by
  rw [write, writeOnto, if_neg (by omega), writeOnto_eq]

/-- Digits are written from the first one on, each for a number that is a multiple of the radix greater. -/
theorem write_induct {motive : List Char → Nat → Prop}
    (low : 2 ≤ radix) (one : ∀ d < radix, motive [ofValue d] d)
    (more : ∀ digits n, ∀ d < radix, motive digits n → motive (digits ++ [ofValue d]) (n * radix + d)) (n : Nat) :
    motive (write radix n) n := by
  induction n using Nat.strongRecOn with
  | _ n ih =>
    rcases Nat.lt_or_ge n radix with small | large
    · rw [write_of_lt small]
      exact one n small
    · have less : n / radix < n := Nat.div_lt_self (by omega) (by omega)
      have next := more _ _ _ (Nat.mod_lt n (by omega)) (ih _ less)
      rwa [← write_of_le low large, Nat.mul_comm, Nat.div_add_mod] at next

theorem number_write (low : 2 ≤ radix) (high : radix ≤ 36) (n : Nat) : number radix (write radix n) = n := by
  refine @write_induct radix (fun digits n => number radix digits = n) low (fun d small => ?_)
    (fun digits n d small ih => ?_) n
  · show 0 * radix + (value? radix (ofValue d)).getD 0 = d
    rw [value?_ofValue small high, Nat.zero_mul, Nat.zero_add]
    rfl
  · rw [number_concat, value?_ofValue small high, ih]
    rfl

theorem allIn_write (low : 2 ≤ radix) (high : radix ≤ 36) (n : Nat) : AllIn radix (write radix n) := by
  refine @write_induct radix (fun digits _ => AllIn radix digits) low (fun d small => ?_)
    (fun digits n d small ih => ?_) n
  · exact List.forall_mem_singleton.mpr (by rw [value?_ofValue small high]; rfl)
  · exact List.forall_mem_append.mpr ⟨ih, List.forall_mem_singleton.mpr (by rw [value?_ofValue small high]; rfl)⟩

theorem write_ne_nil (low : 2 ≤ radix) (n : Nat) : write radix n ≠ [] :=
  @write_induct radix (fun digits _ => digits ≠ []) low (fun _ _ => List.cons_ne_nil _ _)
    (fun _ _ _ _ _ => List.append_ne_nil_of_right_ne_nil _ (List.cons_ne_nil _ _)) n

theorem isDigit_ofValue (small : d < 10) : (ofValue d).isDigit = true ∧ (ofValue d).toNat - '0'.toNat = d := by
  have known : ∀ d < 10, (ofValue d).isDigit = true ∧ (ofValue d).toNat - '0'.toNat = d := by decide
  exact known d small

theorem ofDigits_write (n : Nat) :
    (∀ c ∈ write 10 n, c.isDigit = true) ∧ Decimal.ofDigits (write 10 n) = n := by
  refine @write_induct 10 (fun digits n => (∀ c ∈ digits, c.isDigit = true) ∧ Decimal.ofDigits digits = n)
    (by decide)
    (fun d small => ?_) (fun digits n d small ih => ?_) n
  · obtain ⟨digit, value⟩ := isDigit_ofValue small
    refine ⟨List.forall_mem_singleton.mpr digit, ?_⟩
    show 10 * 0 + ((ofValue d).toNat - '0'.toNat) = d
    rw [value, Nat.zero_add]
  · obtain ⟨digit, value⟩ := isDigit_ofValue small
    refine ⟨List.forall_mem_append.mpr ⟨ih.1, List.forall_mem_singleton.mpr digit⟩, ?_⟩
    have last : Decimal.ofDigits (digits ++ [ofValue d]) =
        10 * Decimal.ofDigits digits + ((ofValue d).toNat - '0'.toNat) := by
      rw [Decimal.ofDigits, List.foldl_append]
      rfl
    rw [last, ih.2, value, Nat.mul_comm]

end Digit

end Calculator
