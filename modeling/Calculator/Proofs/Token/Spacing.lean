import Calculator.Proofs.Token.Layout

/-!
# Tokens apart

A lexeme does not need what stood behind it, and it does not run over a blank. So the tokens of a text are
read again from their own texts, whatever they stood next to: each one alone, and all of them with blanks
between them.
-/

namespace Calculator

open Token (endsOperand_space)

variable {tokens : List Token} {token : Token} {rest : List Char} {text : String}

theorem scansAs_nil : ScansAs rest [] rest :=
  fun position => ⟨[], position, fun _ => rfl, rfl⟩

namespace Token

/-- The texts of the tokens up to the stop token, with single blanks between them. -/
def spaced (tokens : List Token) : String :=
  String.intercalate " " ((tokens.filter fun token => !token.isStop).map Token.text)

theorem spaced_stop {position : Nat} (others : ∀ token ∈ tokens, token.isStop = false) :
    spaced (tokens ++ [stop position]) = String.intercalate " " (tokens.map Token.text) := by
  have kept : (tokens ++ [stop position]).filter (fun token => !token.isStop) = tokens := by
    rw [List.filter_append, List.filter_eq_self.mpr fun token member => by simp [others token member]]
    simp [isStop, stop]
  rw [spaced, kept]

/-- Lexemes are read again where blanks stand between them. -/
theorem scansAs_intercalate (lexemes : ∀ token ∈ tokens, token.IsLexeme) :
    ScansAs (String.intercalate " " (tokens.map Token.text)).toList tokens [] := by
  induction tokens with
  | nil => exact scansAs_nil
  | cons token rest ih =>
    obtain ⟨lexeme, lexemes⟩ := List.forall_mem_cons.mp lexemes
    cases rest with
    | nil =>
      have rereads : token.Rereads [] := lexeme.rereads nofun
      have scans := rereads.scansAs
      rwa [List.append_nil] at scans
    | cons next rest =>
      have scans := (lexeme.rereads endsOperand_space).scansAs.trans (scansAs_space.trans (ih lexemes))
      rw [List.map_cons, List.map_cons, String.intercalate_cons_cons, String.toList_append, String.toList_append,
        List.append_assoc]
      exact scans

theorem IsLexeme.scan_text (h : token.IsLexeme) :
    scan token.text = .ok [{ token with position := 0 }, stop token.text.utf8ByteSize] := by
  have rereads : token.Rereads [] := h.rereads nofun
  obtain ⟨last, scans⟩ := rereads 0
  rw [List.append_nil] at scans
  have scanned := scan_of_scans scans
  obtain ⟨more, same, -⟩ := (tiles_of_scan scanned).stops
  have place : stop last = stop (0 + String.utf8Len token.text.toList) :=
    List.head_eq_of_cons_eq (List.append_inj_right' same rfl)
  rw [scanned, place, Nat.zero_add, ← utf8ByteSize_eq]
  rfl

/-- The tokens of a text are read again, up to their places, when single blanks are between them, and each
one is read again by itself. -/
theorem scan_spaced (scanned : scan text = .ok tokens) :
    (∃ again, scan (spaced tokens) = .ok again ∧ again.map unplaced = tokens.map unplaced) ∧
      ∀ token ∈ tokens, token.isStop = false →
        scan token.text = .ok [{ token with position := 0 }, stop token.text.utf8ByteSize] := by
  have tiles := tiles_of_scan scanned
  refine ⟨?_, fun token member other => (tiles.isLexeme member other).scan_text⟩
  obtain ⟨more, rfl, others⟩ := tiles.stops
  have lexemes token (member : token ∈ more) : token.IsLexeme :=
    tiles.isLexeme (List.mem_append_left _ member) (others token member)
  obtain ⟨again, last, scans, same⟩ := scansAs_intercalate lexemes 0
  rw [spaced_stop others]
  refine ⟨again ++ [stop last], scan_of_scans scans, ?_⟩
  rw [List.map_append, List.map_append, same]
  rfl

/-- `0b102>>>.5e-1` is read as `0b10 2 >> > .5e-1`. -/
theorem scan_spaced_run :
    let binary : Token := { kind := .number, text := "0b10", position := 0, base := .binary }
    let two : Token := { kind := .number, text := "2", position := 4 }
    let shift : Token := { kind := .operator, text := ">>", position := 5 }
    let angle : Token := { kind := .operator, text := ">", position := 7 }
    let half : Token := { kind := .number, text := ".5e-1", position := 8 }
    let tokens := [binary, two, shift, angle, half, stop 13]
    scan "0b102>>>.5e-1" = .ok tokens ∧ spaced tokens = "0b10 2 >> > .5e-1" ∧
      (∃ again, scan "0b10 2 >> > .5e-1" = .ok again ∧ again.map unplaced = tokens.map unplaced) ∧
      scan ".5e-1" = .ok [{ half with position := 0 }, stop 5] := by
  intro binary two shift angle half tokens
  have scanned : scan "0b102>>>.5e-1" = .ok tokens := by cbv
  have written : spaced tokens = "0b10 2 >> > .5e-1" := by decide
  obtain ⟨again, each⟩ := scan_spaced scanned
  exact ⟨scanned, written, written ▸ again, each half (by simp [tokens]) rfl⟩

end Token

end Calculator
