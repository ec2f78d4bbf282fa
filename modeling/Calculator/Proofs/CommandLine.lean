import Calculator.CommandLine
import Calculator.Proofs.Expr.Outline
import Calculator.Proofs.Mode
import Calculator.Proofs.Parser.Categories
import Calculator.Proofs.Parser.Sums
import Calculator.Proofs.Session
import Calculator.Proofs.Token.Layout

/-!
# What a run prints

A run prints the tokens and the tree of the expression, where they are asked for, and the result. What is
asked for on the way changes neither whether there is a result nor what it is.
-/

namespace Calculator.CommandLine

variable {draw : Expr → String} {options : Options} {expression text : String} {mode : Mode} {report : Report}

/-! ### Stages -/

theorem complain_eq_ok {α : Type} {result : Except Failure α} {doing : Option String} {a : α} :
    complain result doing = .ok a ↔ result = .ok a := by
  cases result with
  | error failure => exact ⟨nofun, nofun⟩
  | ok => simp [complain, Except.mapError]

theorem tokenLine_eq_ok : tokenLine expression = .ok text ↔
    ∃ tokens, Token.scan expression = .ok tokens ∧ Token.layout tokens ++ "\n" = text := by
  simp only [tokenLine, bind_eq_ok, complain_eq_ok, pure, Except.pure, Except.ok.injEq]

theorem treeText_eq_ok : treeText draw mode expression = .ok text ↔
    ∃ e, mode.parser.convert mode.context.table expression = .ok e ∧ e.outlineBy draw = text := by
  simp only [treeText, bind_eq_ok, complain_eq_ok, pure, Except.pure, Except.ok.injEq]

theorem resultLine_eq_ok : resultLine mode expression = .ok text ↔
    ∃ value, mode.evaluate expression = .ok value ∧
      ∃ shown, mode.formatValue value = .ok shown ∧ shown ++ "\n" = text := by
  simp only [resultLine, bind_eq_ok, complain_eq_ok, pure, Except.pure, Except.ok.injEq]

theorem prepare_default (expression : String) (tokens tree : Bool) :
    prepare { expression := some expression, tokens, tree } .initial = .ok (expression, .ofFlavour .standard) := by
  have found : Registry.initial.get? Registry.defaultName = some (.ofFlavour .standard) :=
    Registry.get?_initial .standard
  simp only [prepare, selectMode, found]
  rfl

theorem parsed_of_evaluate {value : Float} (evaluated : mode.evaluate expression = .ok value) :
    ∃ tokens e, Token.scan expression = .ok tokens ∧ mode.parser.convert mode.context.table expression = .ok e := by
  obtain ⟨x, calculated, -⟩ := bind_eq_ok.mp evaluated
  obtain ⟨e, converted, -⟩ := bind_eq_ok.mp calculated
  obtain ⟨tokens, scanned, -⟩ := ParserKind.parse_of_convert converted
  exact ⟨tokens, e, scanned, converted⟩

/-- Where there is a result, there are tokens and a tree to print before it. -/
theorem stages_of_result (result : resultLine mode expression = .ok text) :
    (∃ line, tokenLine expression = .ok line) ∧ ∃ outline, treeText draw mode expression = .ok outline := by
  obtain ⟨value, evaluated, -⟩ := resultLine_eq_ok.mp result
  obtain ⟨tokens, e, scanned, converted⟩ := parsed_of_evaluate evaluated
  exact ⟨⟨_, tokenLine_eq_ok.mpr ⟨tokens, scanned, rfl⟩⟩,
    ⟨_, treeText_eq_ok.mpr ⟨e, converted, rfl⟩⟩⟩

/-! ### Runs -/

/-- What is printed in a stage that may not be asked for. -/
def Prints (asked : Bool) (stage : Except Complaint String) (text : String) : Prop :=
  if asked then stage = .ok text else text = ""

/-- A run that fails, with the stage that cannot be printed and what was printed before it. -/
inductive Stops (draw : Expr → String) (options : Options) : Report → Prop
  | request {complaint : Complaint} (refused : prepare options .initial = .error complaint) :
      Stops draw options ⟨1, "", complaint.text⟩
  | tokens {expression : String} {mode : Mode} {complaint : Complaint}
      (prepared : prepare options .initial = .ok (expression, mode)) (asked : options.tokens = true)
      (fails : tokenLine expression = .error complaint) :
      Stops draw options ⟨1, "", complaint.text⟩
  | tree {expression line : String} {mode : Mode} {complaint : Complaint}
      (prepared : prepare options .initial = .ok (expression, mode))
      (tokens : Prints options.tokens (tokenLine expression) line) (asked : options.tree = true)
      (fails : treeText draw mode expression = .error complaint) :
      Stops draw options ⟨1, line, complaint.text⟩
  | result {expression line outline : String} {mode : Mode} {complaint : Complaint}
      (prepared : prepare options .initial = .ok (expression, mode))
      (tokens : Prints options.tokens (tokenLine expression) line)
      (tree : Prints options.tree (treeText draw mode expression) outline)
      (fails : resultLine mode expression = .error complaint) :
      Stops draw options ⟨1, line ++ outline, complaint.text⟩

inductive Finishes (draw : Expr → String) (options : Options) : Report → Prop
  | intro {expression line outline result : String} {mode : Mode}
      (prepared : prepare options .initial = .ok (expression, mode))
      (tokens : Prints options.tokens (tokenLine expression) line)
      (tree : Prints options.tree (treeText draw mode expression) outline)
      (shown : resultLine mode expression = .ok result) :
      Finishes draw options ⟨0, line ++ outline ++ result, ""⟩

/-- A stage is printed, or not asked for, or ends the run. -/
theorem print_optional (output : String) (asked : Bool) (stage : Except Complaint String)
    (rest : List (Except Complaint String)) :
    (∃ text, Prints asked stage text ∧
        print output ((if asked then [stage] else []) ++ rest) = print (output ++ text) rest) ∨
      ∃ complaint, asked = true ∧ stage = .error complaint ∧
        print output ((if asked then [stage] else []) ++ rest) = ⟨1, output, complaint.text⟩ := by
  cases asked with
  | false => exact .inl ⟨"", rfl, by simp⟩
  | true =>
    cases stage with
    | ok text => exact .inl ⟨text, rfl, rfl⟩
    | error complaint => exact .inr ⟨complaint, rfl, rfl, rfl⟩

theorem runWith_ends (draw : Expr → String) (lists : options.listModes = false) :
    Stops draw options (runWith draw options) ∨ Finishes draw options (runWith draw options) := by
  unfold runWith
  dsimp only
  rw [if_neg (by simp [lists])]
  cases prepared : prepare options .initial with
  | error complaint => exact .inl (.request prepared)
  | ok pair =>
    obtain ⟨expression, mode⟩ := pair
    dsimp only
    rw [stages, List.append_assoc]
    obtain ⟨line, tokens, printed⟩ | ⟨complaint, asked, fails, printed⟩ :=
      print_optional "" options.tokens (tokenLine expression) _
    · rw [printed, String.empty_append]
      obtain ⟨outline, tree, printed⟩ | ⟨complaint, asked, fails, printed⟩ :=
        print_optional line options.tree (treeText draw mode expression) [resultLine mode expression]
      · rw [printed]
        cases shown : resultLine mode expression with
        | error complaint => exact .inl (.result prepared tokens tree shown)
        | ok result => exact .inr (.intro prepared tokens tree shown)
      · rw [printed]
        exact .inl (.tree prepared tokens asked fails)
    · rw [printed]
      exact .inl (.tokens prepared asked fails)

/-! ### Runs with and without flags -/

theorem Stops.code (h : Stops draw options report) : report.code = 1 := by
  cases h <;> rfl

theorem Finishes.code (h : Finishes draw options report) : report.code = 0 := by
  cases h
  rfl

theorem Stops.silent (h : Stops draw { options with tokens := false, tree := false } report) : report.output = "" := by
  cases h with
  | request | tokens => rfl
  | tree _ tokens => exact tokens
  | result _ tokens tree =>
    cases tokens
    cases tree
    rfl

/-- A run that stops has no result to show, whatever else is asked for. -/
theorem Stops.unfinished {other : Report} {tokens tree tokens' tree' : Bool}
    (h : Stops draw { options with tokens, tree } report) :
    ¬ Finishes draw { options with tokens := tokens', tree := tree' } other := by
  rintro ⟨prepared, -, -, shown⟩
  obtain ⟨⟨line, lined⟩, outline, outlined⟩ := @stages_of_result draw _ _ _ shown
  cases h with
  | request refused => cases prepared.symm.trans refused
  | tokens again _ fails =>
    cases prepared.symm.trans again
    cases lined.symm.trans fails
  | tree again _ _ fails =>
    cases prepared.symm.trans again
    cases outlined.symm.trans fails
  | result again _ _ fails =>
    cases prepared.symm.trans again
    cases shown.symm.trans fails

theorem finishes_of_result {result : String} (lists : options.listModes = false)
    (prepared : prepare options .initial = .ok (expression, mode)) (shown : resultLine mode expression = .ok result) :
    Finishes draw options (runWith draw options) := by
  have plain : Finishes draw { options with tokens := false, tree := false } _ := .intro prepared rfl rfl shown
  exact (runWith_ends draw lists).resolve_left fun stops => stops.unfinished plain

theorem Finishes.front {other : Report} {tokens tree : Bool}
    (plain : Finishes draw { options with tokens := false, tree := false } report)
    (flagged : Finishes draw { options with tokens, tree } other) : ∃ front, other.output =
      front ++ report.output := by
  obtain ⟨prepared, none, none', shown⟩ := plain
  obtain @⟨_, line, outline, _, _, again, _, _, shown'⟩ := flagged
  cases prepared.symm.trans again
  cases shown.symm.trans shown'
  cases none
  cases none'
  exact ⟨line ++ outline, by rw [String.empty_append, String.empty_append]⟩

/-- Whichever way trees are drawn, the flags for tokens and tree change neither whether a run succeeds nor
the result. What they print stands in front of it; a run that fails has printed what they had completed
before, and without them nothing. -/
theorem flags_print_in_front (draw : Expr → String) (options : Options) (lists : options.listModes = false)
    (tokens tree : Bool) :
    let flagged : Options := { options with tokens, tree }
    let plain := runWith draw { options with tokens := false, tree := false }
    (runWith draw flagged).code = plain.code ∧
      (plain.code = 0 → ∃ front, (runWith draw flagged).output = front ++ plain.output) ∧
      (plain.code ≠ 0 → Stops draw flagged (runWith draw flagged) ∧ plain.output = "") := by
  intro flagged plain
  have ends : Stops draw flagged (runWith draw flagged) ∨ Finishes draw flagged (runWith draw flagged) :=
    runWith_ends draw lists
  have plainEnds : Stops draw { options with tokens := false, tree := false } plain ∨
      Finishes draw { options with tokens := false, tree := false } plain := runWith_ends draw lists
  rcases plainEnds with stops | finishes
  · have stopsToo : Stops draw flagged (runWith draw flagged) := ends.resolve_right stops.unfinished
    rw [stops.code, stopsToo.code]
    exact ⟨rfl, nofun, fun _ => ⟨stopsToo, stops.silent⟩⟩
  · have finishesToo : Finishes draw flagged (runWith draw flagged) :=
      ends.resolve_left fun stops => stops.unfinished finishes
    rw [finishes.code, finishesToo.code]
    refine ⟨rfl, fun _ => ?_, nofun⟩
    exact finishes.front finishesToo

/-- Of two names in a row the tokens are printed, but no tree. -/
theorem flags_print_in_front_of_names :
    let options : Options := { expression := some "x y" }
    options.listModes = false ∧ (run { options with tokens := true, tree := true }).code = 1 ∧
      (run { options with tokens := true, tree := true }).output = "xy\n" ∧
        (run { options with tokens := false, tree := false }).code = 1 ∧
          (run { options with tokens := false, tree := false }).output = "" := by
  intro options
  have line : tokenLine "x y" = .ok "xy\n" := by cbv
  have converted : (Mode.ofFlavour .standard).parser.convert (Mode.ofFlavour .standard).context.table "x y" =
      .error { cause := .tooManyOperands } := ParserKind.convert_two_names.1
  have printed : ∃ errors, run { options with tokens := true, tree := true } = ⟨1, "xy\n", errors⟩ := by
    have prepared : prepare { options with tokens := true, tree := true } .initial =
        .ok ("x y", .ofFlavour .standard) :=
      prepare_default _ _ _
    have tree : ∃ complaint, treeText Expr.drawing (.ofFlavour .standard) "x y" = .error complaint :=
      ⟨_, by rw [treeText, converted]; rfl⟩
    obtain ⟨complaint, tree⟩ := tree
    refine ⟨complaint.text, ?_⟩
    unfold run runWith
    simp only [prepared, stages, line, tree]
    rfl
  obtain ⟨errors, printed⟩ := printed
  obtain ⟨same, -, fails⟩ := flags_print_in_front Expr.drawing options rfl true true
  have code : (run { options with tokens := true, tree := true }).code =
      (run { options with tokens := false, tree := false }).code := same
  rw [printed] at code ⊢
  have failed : (run { options with tokens := false, tree := false }).code ≠ 0 := by
    rw [← code]
    exact Nat.one_ne_zero
  exact ⟨rfl, rfl, rfl, code.symm, (fails failed).2⟩

/-! ### The last line -/

/-- The last line of an output that ends with a line feed. -/
def lastLine (output : String) : String :=
  String.ofList (output.toList.dropLast.reverse.takeWhile (· ≠ '\n')).reverse

theorem lastLine_append {front line : String} (fresh : front = "" ∨ EndsLine front) (feed : '\n' ∉ line.toList) :
    lastLine (front ++ line ++ "\n") = line := by
  have stop : ∀ c ∈ front.toList.reverse.head?, decide (c ≠ '\n') = false := by
    rcases fresh with rfl | ⟨earlier, rfl⟩
    · simp
    · simp
  have all : ∀ c ∈ line.toList.reverse, decide (c ≠ '\n') = true := by
    intro c member
    refine decide_eq_true fun same => feed ?_
    rw [← same]
    exact List.mem_reverse.mp member
  have kept : (front ++ line ++ "\n").toList.dropLast = front.toList ++ line.toList := by simp
  rw [lastLine, kept, List.reverse_append, takeWhile_append_stop all stop, List.reverse_reverse, String.ofList_toList]

theorem not_feed_name {tokens : List Token} {token : Token} (scanned : Token.scan expression = .ok tokens)
    (member : token ∈ tokens) (kind : token.kind = .identifier) : '\n' ∉ token.text.toList := by
  have other : token.isStop = false := by simp [Token.isStop, kind]
  obtain ⟨lexeme, spelled, -, same⟩ := (Token.tiles_of_scan scanned).isLexeme member other
  rw [same] at kind ⊢
  cases spelled with
  | name _ letter all =>
    rw [Lexeme.toToken, String.toList_ofList]
    intro feed
    rcases List.mem_cons.mp feed with rfl | feed
    · cases letter
    · cases all _ feed
  | number | symbol | shift => cases kind
  | single => exact absurd kind (Lexeme.kindOfSingle_ne (by decide))

theorem not_feed_text {table : OperatorTable} {kind : ParserKind} {e : Expr}
    (converted : kind.convert table expression = .ok e) :
    '\n' ∉ e.text.toList := by
  refine Expr.not_feed_text fun name member => ?_
  obtain ⟨tokens, scanned, token, inside, identifier, rfl⟩ := names_of_convert converted name member
  exact not_feed_name scanned inside identifier

theorem given_of_prepare {registry : Registry} (prepared : prepare options registry = .ok (expression, mode)) :
    options.expression = some expression := by
  unfold prepare at prepared
  split at prepared
  · cases prepared
  next given =>
    obtain ⟨_, -, same⟩ := bind_eq_ok.mp prepared
    obtain ⟨_, -, same⟩ := bind_eq_ok.mp same
    cases same
    exact given

theorem Prints.eq {asked : Bool} {stage : Except Complaint String} {expected : String}
    (h : Prints asked stage text) (same : stage = .ok expected) : text = if asked then expected else "" := by
  cases asked with
  | false => exact h
  | true => exact (Except.ok.inj (same.symm.trans h)).symm

/-- Behind complete lines, an outline and a result end with the result as a line, or with it behind the text of the
expression. -/
theorem lastLine_of_outline {front shown : String} {e : Expr} (lines : EndsLine (draw e)) (tree : Bool)
    (fresh : front = "" ∨ EndsLine front) (feedText : '\n' ∉ e.text.toList) (feedShown : '\n' ∉ shown.toList) :
    lastLine (front ++ (if tree then e.outlineBy draw else "") ++ (shown ++ "\n")) =
      (if tree ∧ Expr.maxOutlineHeight < e.height then e.text else "") ++ shown := by
  rw [← String.append_assoc]
  cases tree with
  | false => simpa using lastLine_append fresh feedShown
  | true =>
    by_cases high : Expr.maxOutlineHeight < e.height
    · have feed : '\n' ∉ (e.text ++ shown).toList := by simp [feedText, feedShown]
      simpa [high, Expr.outlineBy_of_high high, String.append_assoc] using lastLine_append fresh feed
    · rw [if_pos rfl, Expr.outlineBy_of_low (Nat.not_lt.mp high)]
      simpa [high] using lastLine_append (.inr (lines.append front)) feedShown

theorem Finishes.parts (h : Finishes draw options report) (lines : ∀ e, EndsLine (draw e)) :
    ∃ expression mode tokens e value shown,
      options.expression = some expression ∧ prepare options .initial = .ok (expression, mode) ∧
      Token.scan expression = .ok tokens ∧ mode.parser.convert mode.context.table expression = .ok e ∧
      mode.evaluate expression = .ok value ∧ mode.formatValue value = .ok shown ∧
      report.output = (if options.tokens then Token.layout tokens ++ "\n" else "") ++
        (if options.tree then e.outlineBy draw else "") ++ (shown ++ "\n") ∧
      lastLine report.output = (if options.tree ∧ Expr.maxOutlineHeight < e.height then e.text else "") ++ shown := by
  obtain @⟨expression, line, outline, result, mode, prepared, tokens, tree, shown⟩ := h
  obtain ⟨value, evaluated, text, formatted, rfl⟩ := resultLine_eq_ok.mp shown
  obtain ⟨list, e, scanned, converted⟩ := parsed_of_evaluate evaluated
  obtain rfl := tokens.eq (tokenLine_eq_ok.mpr ⟨list, scanned, rfl⟩)
  obtain rfl := tree.eq (treeText_eq_ok.mpr ⟨e, converted, rfl⟩)
  have fresh : (if options.tokens then Token.layout list ++ "\n" else "") = "" ∨
      EndsLine (if options.tokens then Token.layout list ++ "\n" else "") := by
    cases options.tokens with
    | false => exact .inl rfl
    | true => exact .inr ⟨_, rfl⟩
  have line := lastLine_of_outline (lines e) options.tree fresh (not_feed_text converted)
    (Expr.not_feed_of_allShown (Mode.allShown_formatValue formatted))
  exact ⟨expression, mode, list, e, value, text, given_of_prepare prepared, prepared, scanned, converted, evaluated,
    formatted, rfl, line⟩

/-! ### A sum that is too high -/

theorem evaluate_zeros (n : Nat) :
    (Mode.ofFlavour .standard).evaluate (String.ofList (zeros n)) = .ok (Double.ofInt 0) := by
  rw [Mode.evaluate, calculate_zeros (.inl rfl), ok_bind]
  rfl

theorem formatValue_zero : (Mode.ofFlavour .standard).formatValue (Double.ofInt 0) = .ok "0" := by
  decide +kernel

def zerosWithTree (n : Nat) : Options :=
  { expression := some (String.ofList (zeros n)), tree := true }

theorem finishes_zeros (n : Nat) : Finishes Expr.drawing (zerosWithTree n) (run (zerosWithTree n)) :=
  finishes_of_result rfl (prepare_default _ _ _)
    (resultLine_eq_ok.mpr ⟨_, evaluate_zeros n, _, formatValue_zero, rfl⟩)

theorem convert_zeros_standard (n : Nat) :
    (Mode.ofFlavour .standard).parser.convert (Mode.ofFlavour .standard).context.table (String.ofList (zeros n)) =
      .ok (zeroSum (Double.ofInt 0) n) :=
  convert_zeros _ rfl numericValue_zero n

theorem outcome_of_zeros {n : Nat} {e : Expr} {value : Float} {shown : String}
    (prepared : prepare (zerosWithTree n) .initial = .ok (expression, mode))
    (converted : mode.parser.convert mode.context.table expression = .ok e)
    (evaluated : mode.evaluate expression = .ok value)
    (formatted : mode.formatValue value = .ok shown) : e = zeroSum (Double.ofInt 0) n ∧ shown = "0" := by
  cases (prepare_default _ _ _).symm.trans prepared
  cases (convert_zeros_standard n).symm.trans converted
  cases (evaluate_zeros n).symm.trans evaluated
  cases formatValue_zero.symm.trans formatted
  exact ⟨rfl, rfl⟩

theorem text_zeroSum (x : Float) {n : Nat} (long : 0 < n) : (zeroSum x n).text ≠ "" := by
  intro empty
  obtain ⟨n, rfl⟩ := Nat.exists_eq_succ_of_ne_zero (Nat.ne_of_gt long)
  have characters := Expr.toList_text (zeroSum x (n + 1))
  rw [empty, zeroSum, Expr.rendering] at characters
  cases characters

theorem eq_empty_of_append {front line : String} (h : front ++ line = line) : front = "" := by
  have lengths := congrArg String.length h
  rw [String.length_append] at lengths
  exact String.length_eq_zero_iff.mp (by omega)

/-! ### The last line -/

/-- Where drawings end with a line feed, a successful run prints the tokens, the tree and the result, and
the result is the last line, unless the tree is asked for and is too high to be drawn: then the result
follows the text of the expression on its line. -/
theorem last_line_is_result_unless_high (draw : Expr → String) (lines : ∀ e, EndsLine (draw e)) (options : Options)
    (lists : options.listModes = false) (succeeds : (runWith draw options).code = 0) :
    ∃ expression mode tokens e value shown,
      options.expression = some expression ∧ prepare options .initial = .ok (expression, mode) ∧
      Token.scan expression = .ok tokens ∧ mode.parser.convert mode.context.table expression = .ok e ∧
      mode.evaluate expression = .ok value ∧ mode.formatValue value = .ok shown ∧
      (runWith draw options).output = (if options.tokens then Token.layout tokens ++ "\n" else "") ++
        (if options.tree then e.outlineBy draw else "") ++ (shown ++ "\n") ∧
      lastLine (runWith draw options).output =
        (if options.tree ∧ Expr.maxOutlineHeight < e.height then e.text else "") ++ shown := by
  have finishes : Finishes draw options (runWith draw options) := (runWith_ends draw lists).resolve_left fun stops => by
    rw [stops.code] at succeeds
    cases succeeds
  exact finishes.parts lines

/-- The text of a sum of 257 zeros stands in front of its result. -/
theorem last_line_is_result_unless_high_zeros :
    (∀ e, EndsLine (Expr.drawing e)) ∧ (zerosWithTree 256).listModes = false ∧
    (run (zerosWithTree 256)).code = 0 ∧
      lastLine (run (zerosWithTree 256)).output = (zeroSum (Double.ofInt 0) 256).text ++ "0" := by
  have succeeds := (finishes_zeros 256).code
  obtain ⟨expression, mode, tokens, e, value, shown, -, prepared, -, converted, evaluated, formatted, -, last⟩ :=
    last_line_is_result_unless_high Expr.drawing Expr.endsLine_drawing (zerosWithTree 256) rfl succeeds
  obtain ⟨rfl, rfl⟩ := outcome_of_zeros prepared converted evaluated formatted
  rw [if_pos ⟨rfl, by rw [height_zeroSum]; decide⟩] at last
  exact ⟨Expr.endsLine_drawing, rfl, succeeds, last⟩

/-- The last line of a successful run need not be the result. -/
theorem last_line_is_not_result :
    ¬ ∀ (options : Options) (expression : String) (mode : Mode) (value : Float) (shown : String),
      options.listModes = false → (run options).code = 0 → prepare options .initial = .ok (expression, mode) →
        mode.evaluate expression = .ok value → mode.formatValue value = .ok shown →
          lastLine (run options).output = shown := by
  intro shows
  have finishes := finishes_zeros 256
  have same := shows (zerosWithTree 256) _ _ _ _ rfl finishes.code (prepare_default _ _ _) (evaluate_zeros 256)
    formatValue_zero
  obtain ⟨expression, mode, tokens, e, value, shown, -, prepared, -, converted, evaluated, formatted, -, last⟩ :=
    finishes.parts Expr.endsLine_drawing
  obtain ⟨rfl, rfl⟩ := outcome_of_zeros prepared converted evaluated formatted
  rw [if_pos ⟨rfl, by rw [height_zeroSum]; decide⟩, same] at last
  exact text_zeroSum _ (by decide) (eq_empty_of_append last.symm)

end Calculator.CommandLine
