import Calculator.Token.Basic

/-!
# Layout of tokens

`Token.layout` writes tokens with normalized blanks: around an operator between operands and after a
comma, and nowhere else.
-/

namespace Calculator.Token

/-- A token as it is written after `previous`. -/
def written (previous : Option Token) (token : Token) : String :=
  match token.kind with
  | .operator => if opensOperand previous then token.text else " " ++ token.text ++ " "
  | .comma => ", "
  | .endOfInput => ""
  | _ => token.text

/-- Writes the tokens that follow `previous` after `text`. -/
def layoutFrom (text : String) (previous : Option Token) : List Token → String
  | [] => text
  | token :: rest => layoutFrom (text ++ written previous token) (some token) rest

def layout (tokens : List Token) : String :=
  layoutFrom "" none tokens

end Calculator.Token
