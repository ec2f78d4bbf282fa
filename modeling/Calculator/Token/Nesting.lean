import Calculator.Failure
import Calculator.Operator.Table

/-!
# Nesting of tokens

How deep an expression nests, seen from its tokens alone. An open parenthesis counts one level. So does
each unary operator and each right associative one, until an operator of another kind, a comma or the
parenthesis around them ends the chain. A chain of left associative operators does not nest.
-/

namespace Calculator

def maxNesting : Nat := 128

/-- The levels that are open after some tokens. -/
structure Nesting where
  /-- The length of the chain of nesting operators at each open parenthesis, innermost first, and last the
  one outside all parentheses. -/
  chains : List Nat
  depth : Nat

namespace Nesting

def start : Nesting := ⟨[0], 0⟩

/-- Whether an operator after `previous` opens a level. -/
def opensLevel (table : OperatorTable) (previous : Option Token) (token : Token) : Bool :=
  Token.opensOperand previous || (table.binary? token.text).any BinaryOperator.isRightAssociative

def endChain (nesting : Nesting) : Nesting :=
  match nesting.chains with
  | chain :: outer => ⟨0 :: outer, nesting.depth - chain⟩
  | [] => nesting

def extendChain (nesting : Nesting) : Nesting :=
  match nesting.chains with
  | chain :: outer => ⟨(chain + 1) :: outer, nesting.depth + 1⟩
  | [] => nesting

/-- Closes the innermost parenthesis with its chain. A surplus parenthesis closes nothing. -/
def closeParenthesis (nesting : Nesting) : Nesting :=
  match nesting.chains with
  | chain :: next :: outer => ⟨next :: outer, nesting.depth - (chain + 1)⟩
  | _ => nesting

/-- The levels that are open after one more token. -/
def step (table : OperatorTable) (previous : Option Token) (nesting : Nesting) (token : Token) :
    Nesting :=
  match token.kind with
  | .opening => ⟨0 :: nesting.chains, nesting.depth + 1⟩
  | .closing => nesting.closeParenthesis
  | .comma => nesting.endChain
  | .operator => if opensLevel table previous token then nesting.extendChain else nesting.endChain
  | _ => nesting

/-- Checks the tokens after `previous`, at which `nesting` is open. -/
def checkFrom (table : OperatorTable) (previous : Option Token) (nesting : Nesting) :
    List Token → Except Failure Unit
  | [] => .ok ()
  | token :: rest =>
    let nesting := nesting.step table previous token
    if maxNesting < nesting.depth then failAt token.position .nestedTooDeeply
    else checkFrom table (some token) nesting rest

def check (table : OperatorTable) (tokens : List Token) : Except Failure Unit :=
  checkFrom table none start tokens

end Nesting

end Calculator
