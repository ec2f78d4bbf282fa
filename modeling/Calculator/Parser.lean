import Calculator.Descent
import Calculator.Postfix.Reordering
import Calculator.Postfix.Tree
import Calculator.Token.Adjacency
import Calculator.Token.Balance
import Calculator.Token.Lexer
import Calculator.Token.Nesting

/-!
# Parsers

Two ways from tokens to a tree, by the name that chooses between them. Both check the tokens first.
-/

namespace Calculator

inductive ParserKind where
  | shuntingYard
  | recursiveDescent
deriving DecidableEq

namespace ParserKind

def all : List ParserKind := [shuntingYard, recursiveDescent]

def name : ParserKind → String
  | shuntingYard => "shunting-yard"
  | recursiveDescent => "recursive-descent"

/-- The kind with the given name, which may be abbreviated and in upper or lower case. -/
def ofName (name : String) : Except Failure ParserKind :=
  match String.ofList (name.toList.map Char.toLower) with
  | "shunting-yard" | "shunting_yard" | "sy" => .ok shuntingYard
  | "recursive-descent" | "recursive_descent" | "rd" => .ok recursiveDescent
  | _ => failAt 0 (.unknownParser name)

def parse (kind : ParserKind) (table : OperatorTable) (tokens : List Token) : Except Failure Expr := do
  Nesting.check table tokens
  match kind with
  | shuntingYard =>
    Balance.check tokens
    Adjacency.check table tokens
    Postfix.toExpr (← Postfix.ofTokens table tokens)
  | recursiveDescent =>
    Adjacency.check table tokens
    Descent.parse table tokens

def convert (kind : ParserKind) (table : OperatorTable) (text : String) : Except Failure Expr := do
  let tokens ← Token.scan text
  if tokens.all Token.isStop then failAt 0 .blankText
  kind.parse table tokens

end ParserKind

end Calculator
