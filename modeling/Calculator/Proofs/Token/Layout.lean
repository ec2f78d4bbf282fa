import Calculator.Proofs.Operator.Table
import Calculator.Proofs.Parser.Places
import Calculator.Proofs.Token.Cover
import Calculator.Token.Layout

/-!
# Normalized blanks

A text that is accepted has the same tokens when its blanks are normalized. `Token.layout` leaves out the blanks around
parentheses, after names and after unary operators, and no lexeme runs into its neighbour there.
-/

namespace Calculator

open String (utf8Len)
open Token (Scans EndsOperand endsOperand_closing endsOperand_space endsOperand_comma opensOperand)

variable {table : OperatorTable} {form : Form} {tokens before after : List Token} {token : Token} {e : Expr}
variable {previous : Option Token} {rest : List Char} {position : Nat}

/-- The marks are written with one character each. -/
theorem Lexeme.Spelled.mark {lexeme : Lexeme} (h : lexeme.Spelled)
    (kind : lexeme.kind ∈ [.opening, .closing, .comma]) :
    lexeme = { kind := .opening, text := ['('] } ∨ lexeme = { kind := .closing, text := [')'] } ∨
      lexeme = { kind := .comma, text := [','] } := by
  cases h with
  | single =>
    unfold kindOfSingle at kind ⊢
    split
    next opening => exact .inl (by rw [opening])
    split
    next closing => exact .inr (.inl (by rw [closing]))
    split
    next comma => exact .inr (.inr (by rw [comma]))
    next opening closing comma => simp [opening, closing, comma] at kind
  | _ => simp at kind

namespace Token

/-- The characters that `layoutFrom` adds for the tokens after `previous`. -/
def rendering (previous : Option Token) : List Token → List Char
  | [] => []
  | token :: rest => (written previous token).toList ++ rendering (some token) rest

theorem toList_layoutFrom (text : String) (previous : Option Token) (tokens : List Token) :
    (layoutFrom text previous tokens).toList = text.toList ++ rendering previous tokens := by
  induction tokens generalizing text previous with
  | nil => simp [layoutFrom, rendering]
  | cons token rest ih => rw [layoutFrom, ih, rendering, String.toList_append, List.append_assoc]

theorem toList_layout (tokens : List Token) : (layout tokens).toList = rendering none tokens := by
  rw [layout, toList_layoutFrom]
  rfl

theorem rendering_append (filled : before ≠ []) :
    rendering previous (before ++ after) = rendering previous before ++ rendering before.getLast? after := by
  induction before generalizing previous with
  | nil => exact absurd rfl filled
  | cons token rest ih =>
    rw [List.cons_append, rendering, rendering, List.append_assoc]
    cases rest with
    | nil => rfl
    | cons next rest => rw [ih (List.cons_ne_nil next rest), List.getLast?_cons_cons]

/-- An operand, a parenthesis or a name is written as it stands. -/
theorem rendering_operand (plain : token.kind ∉ [.operator, .comma, .endOfInput]) :
    rendering previous (token :: tokens) = token.text.toList ++ rendering (some token) tokens := by
  rw [rendering, written]
  cases kind : token.kind <;> simp_all

theorem rendering_comma (kind : token.kind = .comma) :
    rendering previous (token :: tokens) = ',' :: ' ' :: rendering (some token) tokens := by
  simp [rendering, written, kind]

theorem rendering_unary (kind : token.kind = .operator) (opens : opensOperand previous = true) :
    rendering previous (token :: tokens) = token.text.toList ++ rendering (some token) tokens := by
  simp [rendering, written, kind, opens]

theorem rendering_binary (kind : token.kind = .operator) (ends : opensOperand previous = false) :
    rendering previous (token :: tokens) = ' ' :: (token.text.toList ++ ' ' :: rendering (some token) tokens) := by
  simp [rendering, written, kind, ends]

theorem layout_unplaced (tokens : List Token) : layout (tokens.map unplaced) = layout tokens := by
  have all (text : String) (previous : Option Token) :
      layoutFrom text (previous.map unplaced) (tokens.map unplaced) = layoutFrom text previous tokens := by
    induction tokens generalizing text previous with
    | nil => rfl
    | cons token rest ih =>
      have same : written (previous.map unplaced) token.unplaced = written previous token := by
        rw [written, written, opensOperand_unplaced]
        rfl
      rw [List.map_cons, layoutFrom, same]
      exact ih _ (some token)
  exact all "" none

/-! ### Tokens that are read again -/

/-- The token is a lexeme, spelled as one and not taken for a blank. -/
def IsLexeme (token : Token) : Prop :=
  ∃ lexeme : Lexeme, lexeme.Spelled ∧ (∀ c ∈ lexeme.text.head?, Text.isBlank c = false) ∧
    token = lexeme.toToken token.position

/-- In front of `rest`, the text of the token is read as the token. -/
def Rereads (token : Token) (rest : List Char) : Prop :=
  ∀ position, ∃ next, Scans position (token.text.toList ++ rest) [{ token with position }] next rest

theorem Tiles.isLexeme {text : List Char} (h : Tiles position text tokens) (member : token ∈ tokens)
    (other : token.isStop = false) : token.IsLexeme := by
  induction h with
  | stop =>
    obtain rfl := List.mem_singleton.mp member
    cases other
  | blank _ _ ih => exact ih member
  | @lexeme position lexeme _ _ spelled visible _ ih =>
    rcases List.mem_cons.mp member with rfl | member
    · exact ⟨lexeme, spelled, visible, rfl⟩
    · exact ih member

/-- It is enough that the reader of lexemes finds the same lexeme again. -/
theorem IsLexeme.rereads_of_read (h : token.IsLexeme)
    (read : ∀ lexeme c more position, lexeme.Spelled →
      lexeme.kind = token.kind → String.ofList lexeme.text = token.text →
      lexeme.text = c :: more → Lexeme.read position c (more ++ rest) = .ok lexeme) : token.Rereads rest := by
  obtain ⟨lexeme, spelled, visible, same⟩ := h
  obtain ⟨c, more, chars⟩ := List.exists_cons_of_ne_nil spelled.ne_nil
  intro position
  have kind : lexeme.kind = token.kind := by rw [same, Lexeme.toToken]
  have text : String.ofList lexeme.text = token.text := by rw [same, Lexeme.toToken]
  have scans := scans_lexeme more (visible c (by simp [chars]))
      (read lexeme c more position spelled kind text chars) chars
  rw [← chars, ← String.toList_ofList (l := lexeme.text), text] at scans
  rw [show { token with position } = lexeme.toToken position by rw [same]; rfl]
  exact ⟨_, scans⟩

theorem IsLexeme.rereads (h : token.IsLexeme) (ends : EndsOperand rest) : token.Rereads rest :=
  h.rereads_of_read fun _ _ _ _ spelled _ _ chars => spelled.read_again chars ends

/-- A symbol of a table is read again in front of anything. -/
theorem IsLexeme.rereads_symbol (h : token.IsLexeme) (kind : token.kind = .operator) (symbol : IsSymbol token.text) :
    token.Rereads rest := by
  refine h.rereads_of_read fun lexeme c more position spelled same text chars => ?_
  obtain ⟨d, others, symbolChars, -, read⟩ := symbol
  rw [← text, String.toList_ofList, chars] at symbolChars
  obtain ⟨rfl, rfl⟩ := List.cons.inj symbolChars
  have operator : lexeme = { kind := .operator, text := c :: more } := by
    rw [kind] at same
    rw [← chars]
    cases spelled with
    | number | name => cases same
    | single => exact absurd same (Lexeme.kindOfSingle_ne (by decide))
    | symbol | shift => rfl
  rw [read position rest, operator]

theorem IsLexeme.rereads_name (h : token.IsLexeme) (kind : token.kind = .identifier) : token.Rereads ('(' :: rest) := by
  refine h.rereads_of_read fun lexeme c more position spelled same text chars => ?_
  rw [kind] at same
  have stop : ∀ d ∈ ('(' :: rest).head?, Lexeme.continuesIdentifier d = false := by
    rintro _ ⟨⟩
    decide
  cases spelled with
  | name digit letter all =>
    cases chars
    exact Lexeme.read_name digit letter all stop
  | single => exact absurd same (Lexeme.kindOfSingle_ne (by decide))
  | _ => cases same

/-- Parentheses and commas are read again in front of anything. -/
theorem IsLexeme.rereads_mark (h : token.IsLexeme) (kind : token.kind ∈ [.opening, .closing, .comma]) :
    token.Rereads rest := by
  refine h.rereads_of_read fun lexeme c more position spelled same _ chars => ?_
  rw [← same] at kind
  rcases spelled.mark kind with rfl | rfl | rfl
  all_goals
    cases chars
    rfl

theorem IsLexeme.text_of_mark (h : token.IsLexeme) : (token.kind = .opening → token.text.toList = ['(']) ∧
    (token.kind = .closing → token.text.toList = [')']) ∧ (token.kind = .comma → token.text.toList = [',']) := by
  obtain ⟨lexeme, spelled, -, same⟩ := h
  rw [same, Lexeme.toToken, String.toList_ofList]
  refine ⟨fun kind => ?_, fun kind => ?_, fun kind => ?_⟩
  all_goals
    have mark := spelled.mark (by rw [show lexeme.kind = _ from kind]; decide)
    rcases mark with rfl | rfl | rfl <;> first | rfl | cases kind

end Token

/-! ### Derived tokens -/

/-- From anywhere in a text, the scanner reads the tokens up to their places and comes to `rest`. -/
def ScansAs (text : List Char) (tokens : List Token) (rest : List Char) : Prop :=
  ∀ position, ∃ again next, Scans position text again next rest ∧
    again.map Token.unplaced = tokens.map Token.unplaced

theorem ScansAs.trans {text others : List Char} {more : List Token} (h : ScansAs text tokens rest)
    (h' : ScansAs rest more others) : ScansAs text (tokens ++ more) others := by
  intro position
  obtain ⟨again, next, scans, same⟩ := h position
  obtain ⟨again', last, scans', same'⟩ := h' next
  exact ⟨again ++ again', last, scans.trans scans', by rw [List.map_append, List.map_append, same, same']⟩

theorem scansAs_space : ScansAs (' ' :: rest) [] rest :=
  fun _ => ⟨[], _, Token.scans_blank Text.isBlank_space, rfl⟩

theorem Token.Rereads.scansAs (h : token.Rereads rest) : ScansAs (token.text.toList ++ rest) [token] rest := by
  intro position
  obtain ⟨next, scans⟩ := h position
  exact ⟨_, next, scans, rfl⟩

/-- Laid out where an operand can begin, the tokens are read again. -/
def LaysOut (tokens : List Token) : Prop :=
  ∀ previous, opensOperand previous = true → ∀ rest, EndsOperand rest →
    ScansAs (Token.rendering previous tokens ++ rest) tokens rest

theorem laysOut_operation {token : Token} (kind : token.kind = .operator)
    (lexeme : token.IsLexeme) (filled : before ≠ [])
    (ends : before.getLast?.any Token.endsOperand = true) (l : LaysOut before) (r : LaysOut after) :
    LaysOut (before ++ token :: after) := by
  intro previous opens rest endsRest
  have opensAfter : opensOperand (some token) = true := Token.opensOperand_after (by simp [kind])
  have scans := (l previous opens _ endsOperand_space).trans (scansAs_space.trans
    ((lexeme.rereads endsOperand_space).scansAs.trans (scansAs_space.trans (r (some token) opensAfter rest endsRest))))
  rw [Token.rendering_append filled, Token.rendering_binary kind (Token.opensOperand_of_ends ends)]
  simpa using scans

theorem laysOut_unary {operator : UnaryOperator} (uses : table.UsesSymbols) (means : table.IsUnary token operator)
    (lexeme : token.IsLexeme) (h : LaysOut tokens) : LaysOut (token :: tokens) := by
  intro previous opens rest ends
  have opensAfter : opensOperand (some token) = true := Token.opensOperand_after (by simp [means.1])
  have symbol : Token.IsSymbol token.text := uses.symbol_of_unary means.2 ▸ Token.isSymbol_unary operator
  have scans := (lexeme.rereads_symbol means.1 symbol).scansAs.trans (h (some token) opensAfter rest ends)
  rw [Token.rendering_unary means.1 opens, List.append_assoc]
  exact scans

theorem laysOut_operand (kind : token.kind = .number ∨ token.kind = .identifier) (lexeme : token.IsLexeme) :
    LaysOut [token] := by
  intro previous _ rest ends
  rw [Token.rendering_operand (by rcases kind with kind | kind <;> simp [kind]), Token.rendering, List.append_nil]
  exact (lexeme.rereads ends).scansAs

variable {name opening closing comma : Token}

theorem laysOut_parenthesized (opens : opening.kind = .opening) (closes : closing.kind = .closing)
    (opensLexeme : opening.IsLexeme) (closesLexeme : closing.IsLexeme) (filled : tokens ≠ []) (h : LaysOut tokens) :
    LaysOut (opening :: (tokens ++ [closing])) := by
  intro previous _ rest _
  have opensAfter : opensOperand (some opening) = true := Token.opensOperand_after (by simp [opens])
  have ends : EndsOperand (closing.text.toList ++ rest) := by
    rw [closesLexeme.text_of_mark.2.1 closes]
    exact endsOperand_closing
  have closed : closing.Rereads rest := closesLexeme.rereads_mark (by simp [closes])
  have scans := (opensLexeme.rereads_mark (by simp [opens])).scansAs.trans
    ((h (some opening) opensAfter _ ends).trans closed.scansAs)
  rw [Token.rendering_operand (by simp [opens]),
    Token.rendering_append filled, Token.rendering_operand (by simp [closes]),
    Token.rendering]
  simpa using scans

theorem laysOut_empty (opens : opening.kind = .opening) (closes : closing.kind = .closing)
    (opensLexeme : opening.IsLexeme) (closesLexeme : closing.IsLexeme) : LaysOut [opening, closing] := by
  intro previous _ rest _
  have closed : closing.Rereads rest := closesLexeme.rereads_mark (by simp [closes])
  have scans := (opensLexeme.rereads_mark (by simp [opens])).scansAs.trans closed.scansAs
  rw [Token.rendering_operand (by simp [opens]), Token.rendering_operand (by simp [closes]), Token.rendering]
  simpa using scans

/-- A name stands right in front of its parenthesis, which it does not run into. -/
theorem laysOut_call (kind : name.kind = .identifier) (opens : opening.kind = .opening) (lexeme : name.IsLexeme)
    (opensLexeme : opening.IsLexeme) (h : LaysOut (opening :: tokens)) : LaysOut (name :: opening :: tokens) := by
  intro previous _ rest ends
  have written (previous : Option Token) : Token.rendering previous (opening :: tokens) =
      '(' :: Token.rendering (some opening) tokens := by
    rw [Token.rendering_operand (by simp [opens]), opensLexeme.text_of_mark.1 opens]
    rfl
  have inner := h none rfl rest ends
  rw [written] at inner
  have scans := (lexeme.rereads_name kind).scansAs.trans inner
  rw [Token.rendering_operand (by simp [kind]), written, List.append_assoc]
  exact scans

theorem laysOut_more (kind : comma.kind = .comma)
    (lexeme : comma.IsLexeme) (filled : before ≠ []) (l : LaysOut before)
    (r : LaysOut after) : LaysOut (before ++ comma :: after) := by
  intro previous opens rest ends
  have opensAfter : opensOperand (some comma) = true := Token.opensOperand_after (by simp [kind])
  have mark : comma.Rereads (' ' :: (Token.rendering (some comma) after ++ rest)) :=
    lexeme.rereads_mark (by simp [kind])
  have read := mark.scansAs
  rw [lexeme.text_of_mark.2.2 kind] at read
  have scans := (l previous opens _ endsOperand_comma).trans
      (read.trans (scansAs_space.trans (r (some comma) opensAfter rest ends)))
  rw [Token.rendering_append filled, Token.rendering_comma kind]
  simpa using scans

theorem Derives.laysOut (uses : table.UsesSymbols) (h : Derives table form tokens e)
    (lexemes : ∀ token ∈ tokens, token.IsLexeme) : LaysOut tokens := by
  induction h using @Derives.rec table _
    (fun tokens _ _ => (∀ token ∈ tokens, token.IsLexeme) → LaysOut tokens) with
  | tighter _ _ _ ih | ofPower _ ih | ofPrimary _ ih => exact ih lexemes
  | operation _ _ means _ l _ ihl ihr | power means _ l _ ihl ihr =>
    obtain ⟨lexemesBefore, lexeme, lexemesAfter⟩ : _ ∧ _ ∧ _ := by
      simpa only [List.forall_mem_append, List.forall_mem_cons] using lexemes
    exact laysOut_operation means.1 lexeme l.ne_nil l.last_ends (ihl lexemesBefore) (ihr lexemesAfter)
  | unary means _ ih =>
    obtain ⟨lexeme, lexemes⟩ := List.forall_mem_cons.mp lexemes
    exact laysOut_unary uses means lexeme (ih lexemes)
  | number kind => exact laysOut_operand (.inl kind) (lexemes _ List.mem_cons_self)
  | constant kind => exact laysOut_operand (.inr kind) (lexemes _ List.mem_cons_self)
  | emptyCall kind opens closes =>
    obtain ⟨lexeme, opensLexeme, closesLexeme, -⟩ : _ ∧ _ ∧ _ ∧ _ := by
      simpa only [List.forall_mem_cons] using lexemes
    exact laysOut_call kind opens lexeme opensLexeme (laysOut_empty opens closes opensLexeme closesLexeme)
  | call kind opens closes hs ih =>
    obtain ⟨lexeme, opensLexeme, inner, closesLexeme, -⟩ : _ ∧ _ ∧ _ ∧ _ ∧ _ := by
      simpa only [List.forall_mem_append, List.forall_mem_cons] using lexemes
    exact laysOut_call kind opens lexeme opensLexeme
      (laysOut_parenthesized opens closes opensLexeme closesLexeme hs.ne_nil (ih inner))
  | parenthesized opens closes h ih =>
    obtain ⟨opensLexeme, inner, closesLexeme, -⟩ : _ ∧ _ ∧ _ ∧ _ := by
      simpa only [List.forall_mem_append, List.forall_mem_cons] using lexemes
    exact laysOut_parenthesized opens closes opensLexeme closesLexeme h.ne_nil (ih inner)
  | one _ ih lexemes => exact ih lexemes
  | more h kind _ ih ihs lexemes =>
    obtain ⟨first, lexeme, others⟩ : _ ∧ _ ∧ _ := by
      simpa only [List.forall_mem_append, List.forall_mem_cons] using lexemes
    exact laysOut_more kind lexeme h.ne_nil (ih first) (ihs others)

/-! ### Accepted texts -/

/-- An accepted text has the same tokens, up to their places, when its blanks are normalized. -/
theorem scan_layout {text : String} {kind : ParserKind}
    (uses : table.UsesSymbols) (scanned : Token.scan text = .ok tokens)
    (parsed : kind.parse table tokens = .ok e) :
    ∃ again, Token.scan (Token.layout tokens) = .ok again ∧
      again.map Token.unplaced = tokens.map Token.unplaced := by
  have tiles := Token.tiles_of_scan scanned
  obtain ⟨more, rfl, other⟩ := tiles.stops
  obtain ⟨-, -, derived⟩ := ParserKind.parse_sound kind parsed
  rw [ParserKind.body_of_scan scanned] at derived
  have lexemes token (member : token ∈ more) : token.IsLexeme :=
    tiles.isLexeme (List.mem_append_left _ member) (other token member)
  obtain ⟨again, last, scans, same⟩ := derived.laysOut uses lexemes none rfl [] nofun 0
  have written : (Token.layout (more ++ [.stop (0 + utf8Len text.toList)])).toList =
      Token.rendering none more ++ [] := by
    rw [Token.toList_layout, Token.rendering_append derived.ne_nil]
    rfl
  rw [← written] at scans
  refine ⟨again ++ [.stop last], Token.scan_of_scans scans, ?_⟩
  rw [List.map_append, List.map_append, same]
  rfl

/-- With the table, the texts have the same tokens, trees and values, up to the places of tokens and failures. -/
structure ReadsAlike (table : OperatorTable) (text other : String) : Prop where
  tokens : ∃ tokens others, Token.scan text = .ok tokens ∧ Token.scan other = .ok others ∧
    others.map Token.unplaced = tokens.map Token.unplaced
  trees : ∀ kind : ParserKind, ∃ e e', kind.convert table text = .ok e ∧ kind.convert table other = .ok e' ∧
    e'.unplaced = e.unplaced
  values : ∀ context : Context, context.table = table → ∀ kind,
    byCause (Evaluation.calculate context kind other) = byCause (Evaluation.calculate context kind text)

theorem readsAlike_of_tokens {kind : ParserKind} {text other : String} {others : List Token}
    (known : table = .arithmetic ∨ table = .bitwise) (scanned : Token.scan text = .ok tokens)
    (scannedOther : Token.scan other = .ok others) (same : others.map Token.unplaced = tokens.map Token.unplaced)
    (parsed : kind.parse table tokens = .ok e) : ReadsAlike table text other := by
  obtain ⟨e₁, same₁, parsed₁⟩ := ParserKind.parse_move (ParserKind.stopsLast_of_scan scanned) rfl parsed
  obtain ⟨e₂, same₂, parsed₂⟩ := ParserKind.parse_move (ParserKind.stopsLast_of_scan scannedOther) same parsed
  have converted₁ kind := ParserKind.convert_of_parse scanned (parsed₁ kind)
  have converted₂ kind := ParserKind.convert_of_parse scannedOther (parsed₂ kind)
  have sameTree : e₂.unplaced = e₁.unplaced := same₂.trans same₁.symm
  refine ⟨⟨tokens, others, scanned, scannedOther, same⟩,
    fun kind => ⟨e₁, e₂, converted₁ kind, converted₂ kind, sameTree⟩, ?_⟩
  rintro context rfl kind
  rw [Evaluation.calculate_eq_plain known (converted₁ kind), Evaluation.calculate_eq_plain known (converted₂ kind)]
  exact Evaluation.byCause_plain_of_unplaced sameTree

/-- An accepted text and the text of its tokens with normalized blanks are read alike. Normalizing the blanks once more
changes nothing. -/
theorem layout_reads_alike (table : OperatorTable)
    (known : table = .arithmetic ∨ table = .bitwise) (kind : ParserKind)
    (text : String) (e : Expr) (accepted : kind.convert table text = .ok e) :
    ∃ tokens, Token.scan text = .ok tokens ∧ ReadsAlike table text (Token.layout tokens) ∧
      ∃ again, Token.scan (Token.layout tokens) = .ok again ∧ Token.layout again = Token.layout tokens := by
  have uses : table.UsesSymbols := by
    rcases known with rfl | rfl
    · exact OperatorTable.usesSymbols_arithmetic
    · exact OperatorTable.usesSymbols_bitwise
  obtain ⟨tokens, scanned, parsed⟩ := ParserKind.parse_of_convert accepted
  obtain ⟨again, scannedAgain, same⟩ := scan_layout uses scanned parsed
  refine ⟨tokens, scanned, readsAlike_of_tokens known scanned scannedAgain same parsed, again, scannedAgain, ?_⟩
  rw [← Token.layout_unplaced again, same, Token.layout_unplaced]

/-- `x<<-y` is written as `x << -y`. -/
theorem layout_reads_alike_shift :
    let x : Token := { kind := .identifier, text := "x", position := 0 }
    let shift : Token := { kind := .operator, text := "<<", position := 1 }
    let sign : Token := { kind := .operator, text := "-", position := 3 }
    let y : Token := { kind := .identifier, text := "y", position := 4 }
    let e : Expr := .binary .shiftLeft shift (.call "x" 0 []) (.unary .negate sign (.call "y" 4 []))
    ParserKind.shuntingYard.convert .bitwise "x<<-y" = .ok e ∧
      Token.layout [x, shift, sign, y, .stop 5] = "x << -y" ∧
      ReadsAlike .bitwise "x<<-y" "x << -y" := by
  intro x shift sign y e
  have accepted : ParserKind.shuntingYard.convert .bitwise "x<<-y" = .ok e := by cbv
  have scanned : Token.scan "x<<-y" = .ok [x, shift, sign, y, .stop 5] := by cbv
  have written : Token.layout [x, shift, sign, y, .stop 5] = "x << -y" := by decide
  obtain ⟨tokens, scanned', alike, -⟩ := layout_reads_alike .bitwise (.inr rfl) .shuntingYard "x<<-y" e accepted
  rw [scanned] at scanned'
  cases scanned'
  exact ⟨accepted, written, written ▸ alike⟩

end Calculator
