import Calculator.Failure

/-!
# Balance of parentheses

Every closing parenthesis needs an opening one before it, and every opening one a closing one after it.
-/

namespace Calculator.Balance

/-- Checks tokens inside `depth` open parentheses, the last token of all being at `position`. -/
def checkFrom (position depth : Nat) : List Token → Except Failure Unit
  | [] => if 0 < depth then failAt position .missingClosing else .ok ()
  | token :: rest =>
    match token.kind, depth with
    | .opening, depth => checkFrom position (depth + 1) rest
    | .closing, 0 => failAt token.position .surplusClosing
    | .closing, depth + 1 => checkFrom position depth rest
    | _, depth => checkFrom position depth rest

def check (tokens : List Token) : Except Failure Unit :=
  checkFrom (tokens.getLast?.elim 0 Token.position) 0 tokens

end Calculator.Balance
