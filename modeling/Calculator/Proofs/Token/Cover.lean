import Calculator.Proofs.Token.Lexeme

/-!
# The tokens of a text cover it

The tokens of a text are slices of it, in order, with nothing but blanks between them.
-/

namespace Calculator

open String (utf8Len)

namespace Token

variable {position : Nat} {text : List Char} {before tokens : List Token} {token : Token}

/-- From byte `position` on, the text consists of blanks and of the lexemes of the tokens, the last of which is a stop
token. -/
inductive Tiles : Nat → List Char → List Token → Prop
  | stop (position : Nat) : Tiles position [] [stop position]
  | blank {position : Nat} {c : Char} {text : List Char} {tokens : List Token} (blank : Text.isBlank c = true)
      (rest : Tiles (position + c.utf8Size) text tokens) : Tiles position (c :: text) tokens
  | lexeme {position : Nat} {lexeme : Lexeme} {text : List Char} {tokens : List Token} (spelled : lexeme.Spelled)
      (visible : ∀ c ∈ lexeme.text.head?, Text.isBlank c = false)
      (rest : Tiles (position + utf8Len lexeme.text) text tokens) :
      Tiles position (lexeme.text ++ text) (lexeme.toToken position :: tokens)

/-- The scanner splits a text into tiles, or stops at one of its characters. -/
theorem scanFrom_tiles (position : Nat) (before : List Token) (text : List Char) :
    Ends (fun tokens => ∃ more, tokens = before.reverse ++ more ∧ Tiles position text more)
      (FailsWithin position text) (scanFrom position before text) := by
  fun_induction scanFrom position before text with
  | case1 position before => exact ⟨[stop position], List.reverse_cons, .stop position⟩
  | case2 position before c rest blank ih =>
    refine ih.mono ?_ fun failure fails => fails.append [c] (by simp)
    rintro _ ⟨more, rfl, tiles⟩
    exact ⟨more, rfl, .blank blank tiles⟩
  | case3 position before c rest _ failure read =>
    have front := Lexeme.read_front position c rest
    rwa [read] at front
  | case4 position before c rest visible lexeme read ih =>
    obtain ⟨more, after, same, rfl⟩ := Lexeme.read_text read
    have drop : (more ++ after).drop (lexeme.text.length - 1) = after := by
      rw [same, List.length_cons, Nat.add_sub_cancel, List.drop_left]
    have whole : c :: (more ++ after) = lexeme.text ++ after := by rw [same, List.cons_append]
    rw [drop, utf8Length_eq] at ih
    rw [drop, utf8Length_eq, whole]
    refine ih.mono ?_ fun failure fails => fails.append lexeme.text rfl
    rintro _ ⟨tokens, rfl, tiles⟩
    refine ⟨lexeme.toToken position :: tokens, by simp, .lexeme (Lexeme.read_spelled read) ?_ tiles⟩
    rw [same]
    rintro _ ⟨⟩
    exact Bool.eq_false_iff.mpr visible

theorem tiles_of_scan {text : String} (h : scan text = .ok tokens) : Tiles 0 text.toList tokens := by
  have tiled := scanFrom_tiles 0 [] text.toList
  rw [scan] at h
  rw [h] at tiled
  obtain ⟨_, rfl, tiles⟩ := tiled
  exact tiles

theorem size_toToken (lexeme : Lexeme) : (lexeme.toToken position).text.utf8ByteSize = utf8Len lexeme.text :=
  String.utf8ByteSize_ofList lexeme.text

namespace Tiles

theorem stops (h : Tiles position text tokens) :
    ∃ more, tokens = more ++ [Token.stop (position + utf8Len text)] ∧ ∀ token ∈ more, token.isStop = false := by
  induction h with
  | stop => exact ⟨[], rfl, nofun⟩
  | blank _ _ ih =>
    rw [String.utf8Len_cons, Nat.add_comm (utf8Len _), ← Nat.add_assoc]
    exact ih
  | @lexeme position lexeme _ _ spelled _ _ ih =>
    obtain ⟨more, rfl, other⟩ := ih
    refine ⟨lexeme.toToken position :: more, ?_, List.forall_mem_cons.mpr ⟨?_, other⟩⟩
    · rw [String.utf8Len_append, Nat.add_assoc, List.cons_append]
    · exact decide_eq_false spelled.kind_ne

theorem slice (h : Tiles position text tokens) (member : token ∈ tokens) :
    ∃ front back, text = front ++ (token.text.toList ++ back) ∧ token.position = position + utf8Len front := by
  induction h with
  | stop =>
    obtain rfl := List.mem_singleton.mp member
    exact ⟨[], [], rfl, rfl⟩
  | @blank _ c _ _ _ _ ih =>
    obtain ⟨front, back, rfl, place⟩ := ih member
    refine ⟨c :: front, back, rfl, ?_⟩
    rw [place, String.utf8Len_cons, Nat.add_comm (utf8Len _), Nat.add_assoc]
  | @lexeme _ lexeme text _ _ _ _ ih =>
    rcases List.mem_cons.mp member with rfl | member
    · exact ⟨[], text, by simp [Lexeme.toToken], rfl⟩
    · obtain ⟨front, back, rfl, place⟩ := ih member
      refine ⟨lexeme.text ++ front, back, (List.append_assoc _ _ _).symm, ?_⟩
      rw [place, String.utf8Len_append, Nat.add_assoc]

theorem filled (h : Tiles position text tokens) (member : token ∈ tokens) (other : token.isStop = false) :
    token.text ≠ "" := by
  induction h with
  | stop =>
    obtain rfl := List.mem_singleton.mp member
    cases other
  | blank _ _ ih => exact ih member
  | lexeme spelled _ _ ih =>
    rcases List.mem_cons.mp member with rfl | member
    · exact fun empty => spelled.ne_nil (String.ofList_eq_empty_iff.mp empty)
    · exact ih member

theorem position_le (h : Tiles position text tokens) (member : token ∈ tokens) : position ≤ token.position := by
  obtain ⟨front, -, -, place⟩ := h.slice member
  rw [place]
  exact Nat.le_add_right _ _

theorem apart (h : Tiles position text tokens) :
    tokens.Pairwise fun token next => token.position + token.text.utf8ByteSize ≤ next.position := by
  induction h with
  | stop => exact List.pairwise_singleton _ _
  | blank _ _ ih => exact ih
  | lexeme _ _ rest ih =>
    refine List.pairwise_cons.mpr ⟨fun next member => ?_, ih⟩
    rw [size_toToken]
    exact rest.position_le member

/-- The character at byte `position + utf8Len front` is a blank or in a token. -/
theorem covers (h : Tiles position text tokens) {front back : List Char} {c : Char} (here : text = front ++ c :: back) :
    Text.isBlank c = true ∨ ∃ token ∈ tokens, token.position ≤ position + utf8Len front ∧
      position + utf8Len front < token.position + token.text.utf8ByteSize := by
  induction h generalizing front with
  | stop => simp at here
  | @blank position d _ _ blank _ ih =>
    cases front with
    | nil =>
      cases here
      exact .inl blank
    | cons _ front =>
      cases here
      refine (ih rfl).imp_right ?_
      rintro ⟨token, member, low, high⟩
      rw [Nat.add_assoc, Nat.add_comm d.utf8Size] at low high
      exact ⟨token, member, low, high⟩
  | @lexeme position lexeme text tokens _ _ _ ih =>
    -- The character may stand behind the lexeme, right at its end or inside it.
    have behind {more : List Char} (past : front = lexeme.text ++ more) (rest : text = more ++ c :: back) :
        Text.isBlank c = true ∨ ∃ token ∈ lexeme.toToken position :: tokens,
          token.position ≤ position + utf8Len front ∧
          position + utf8Len front < token.position + token.text.utf8ByteSize := by
      refine (ih rest).imp_right ?_
      rintro ⟨token, member, low, high⟩
      rw [Nat.add_assoc, ← String.utf8Len_append, ← past] at low high
      exact ⟨token, List.mem_cons_of_mem _ member, low, high⟩
    rcases List.append_eq_append_iff.mp here with ⟨more, past, rest⟩ | ⟨_ | ⟨d, more⟩, inside, rest⟩
    · exact behind past rest
    · exact @behind [] (by simp [inside]) rest.symm
    · refine .inr ⟨lexeme.toToken position, List.mem_cons_self, Nat.le_add_right _ _, ?_⟩
      have size := d.utf8Size_pos
      rw [size_toToken, inside, String.utf8Len_append, String.utf8Len_cons]
      show position + utf8Len front < position + _
      omega

end Tiles

/-! ### Texts -/

/-- The tokens are slices of the text, in order, with nothing but blanks between them, and end with a stop token. -/
structure Covers (text : String) (tokens : List Token) : Prop where
  boundary : ∀ token ∈ tokens, String.Pos.Raw.IsValid text ⟨token.position⟩
  slice : ∀ token ∈ tokens, ∃ front back, text = front ++ token.text ++ back ∧
    front.utf8ByteSize = token.position
  filled : ∀ token ∈ tokens, token.isStop = false → token.text ≠ ""
  apart : tokens.Pairwise fun token next => token.position + token.text.utf8ByteSize ≤ next.position
  blank : ∀ front c back, text = front ++ String.singleton c ++ back → Text.isBlank c = true ∨
    ∃ token ∈ tokens, token.position ≤ front.utf8ByteSize ∧
      front.utf8ByteSize < token.position + token.text.utf8ByteSize
  stops : ∃ more, tokens = more ++ [stop text.utf8ByteSize] ∧ ∀ token ∈ more, token.isStop = false

/-- The failure is one of syntax, at a character of the text. -/
structure Refuses (text : String) (failure : Failure) : Prop where
  category : failure.category = .invalidSyntax
  boundary : String.Pos.Raw.IsValid text ⟨failure.position⟩
  inside : failure.position < text.utf8ByteSize

theorem utf8ByteSize_eq (text : String) : text.utf8ByteSize = utf8Len text.toList := by
  rw [← String.utf8ByteSize_ofList, String.ofList_toList]

theorem Tiles.covers_text {text : String} (h : Tiles 0 text.toList tokens) : Covers text tokens := by
  have slice token (member : token ∈ tokens) :
      ∃ front back, text = front ++ token.text ++ back ∧ front.utf8ByteSize = token.position := by
    obtain ⟨front, back, same, place⟩ := h.slice member
    refine ⟨String.ofList front, String.ofList back, ?_, ?_⟩
    · rw [← String.toList_inj, same]
      simp
    · rw [place, String.utf8ByteSize_ofList, Nat.zero_add]
  have boundary token (member : token ∈ tokens) : String.Pos.Raw.IsValid text ⟨token.position⟩ := by
    obtain ⟨front, back, same, place⟩ := slice token member
    refine String.Pos.Raw.isValid_iff_exists_append.mpr ⟨front, token.text ++ back, ?_, ?_⟩
    · rw [same, String.append_assoc]
    · rw [← place]
      rfl
  refine ⟨boundary, slice, fun _ => h.filled, h.apart, fun front c back same => ?_, ?_⟩
  · have here : text.toList = front.toList ++ c :: back.toList := by simp [same]
    have covered := h.covers here
    rwa [Nat.zero_add, ← utf8ByteSize_eq] at covered
  · have stops := h.stops
    rwa [Nat.zero_add, ← utf8ByteSize_eq] at stops

theorem refuses_of_failsWithin {text : String} {failure : Failure} (h : FailsWithin 0 text.toList failure) :
    Refuses text failure := by
  obtain ⟨category, front, c, back, same, place⟩ := h
  rw [Nat.zero_add] at place
  have size := c.utf8Size_pos
  refine ⟨category, String.Pos.Raw.isValid_iff_exists_append.mpr
    ⟨String.ofList front, String.ofList (c :: back), ?_, ?_⟩, ?_⟩
  · rw [← String.ofList_append, ← same, String.ofList_toList]
  · rw [place, ← String.utf8ByteSize_ofList]
    rfl
  · rw [place, utf8ByteSize_eq, same, String.utf8Len_append, String.utf8Len_cons]
    omega

/-- The tokens of a text cover it, and a text without tokens is refused at one of its characters. -/
theorem scan_covers (text : String) :
    (∀ tokens, scan text = .ok tokens → Covers text tokens) ∧
      ∀ failure, scan text = .error failure → Refuses text failure := by
  refine ⟨fun tokens scanned => (tiles_of_scan scanned).covers_text, fun failure refused => ?_⟩
  have tiled := scanFrom_tiles 0 [] text.toList
  rw [scan] at refused
  rw [refused] at tiled
  exact refuses_of_failsWithin tiled

/-- `x << 0x1F` and `x + 1.2.3`, each with a blank of three bytes in front. -/
theorem scan_covers_name :
    let name : Token := { kind := .identifier, text := "x", position := 3 }
    let shift : Token := { kind := .operator, text := "<<", position := 5 }
    let number : Token := { kind := .number, text := "0x1F", position := 8, base := .hexadecimal }
    let failure : Failure := { cause := .secondPoint, position := 10 }
    (scan "\u3000x << 0x1F" = .ok [name, shift, number, stop 12] ∧
      Covers "\u3000x << 0x1F" [name, shift, number, stop 12]) ∧
      scan "\u3000x + 1.2.3" = .error failure ∧ Refuses "\u3000x + 1.2.3" failure := by
  intro name shift number failure
  -- The wide blank is skipped by a lemma, since it is slow to compute with.
  have blank : Text.isBlank '\u3000' = true := by cbv
  have scanned : scan "\u3000x << 0x1F" = .ok [name, shift, number, stop 12] := by
    have chars : "\u3000x << 0x1F".toList = '\u3000' :: ['x', ' ', '<', '<', ' ', '0', 'x', '1', 'F'] :=
      String.toList_ofList
    rw [scan, chars, scans_blank blank]
    cbv
  have refused : scan "\u3000x + 1.2.3" = .error failure := by
    have chars : "\u3000x + 1.2.3".toList = '\u3000' :: ['x', ' ', '+', ' ', '1', '.', '2', '.', '3'] :=
      String.toList_ofList
    rw [scan, chars, scans_blank blank]
    cbv
  exact ⟨⟨scanned, (scan_covers _).1 _ scanned⟩, refused, (scan_covers _).2 _ refused⟩

end Token

end Calculator
