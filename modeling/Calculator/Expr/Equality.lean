import Calculator.Expr.Basic

/-!
# Equality of expressions

Two expressions are the same if they agree node by node. Literals are compared as numbers, so a literal
that is not a number differs from itself.
-/

namespace Calculator.Expr

theorem sizeAll_zip_le (xs ys : List Expr) : sizeAll ((xs.zip ys).map Prod.fst) ≤ sizeAll xs := by
  induction xs generalizing ys with
  | nil => simp [sizeAll]
  | cons x xs ih =>
    cases ys with
    | nil => simp [sizeAll]
    | cons y ys => simpa [sizeAll] using ih ys

def sameAll : List (Expr × Expr) → Bool
  | [] => true
  | (literal x, literal y) :: rest => x == y && sameAll rest
  | (binary f s a b, binary g t c d) :: rest =>
    f == g && s == t && sameAll ((a, c) :: (b, d) :: rest)
  | (unary f s a, unary g t b) :: rest => f == g && s == t && sameAll ((a, b) :: rest)
  | (call f p as, call g q bs) :: rest =>
    f == g && p == q && as.length == bs.length && sameAll (as.zip bs ++ rest)
  | _ :: _ => false
termination_by pairs => sizeAll (pairs.map Prod.fst)
decreasing_by
  all_goals simp [sizeAll_append, sizeAll, size]
  · omega
  · have := sizeAll_zip_le as bs
    omega

def same (a b : Expr) : Bool :=
  sameAll [(a, b)]

end Calculator.Expr
