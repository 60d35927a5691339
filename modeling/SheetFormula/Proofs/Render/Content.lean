import SheetFormula.Proofs.Render.Minify
import SheetFormula.Proofs.Scanner.Account

/-!
# The short form keeps the content of a formula

Finishing a stream drops blanks and the signs that stand for nothing, and leaves the spelling of all
other tokens alone (`Leads.substance_finishStream`).  What the scanner has read and what completes
it is therefore what the short form of a formula holds, blanks and pluses apart
(`minify_substance`).
-/

namespace SheetFormula

variable {convention : Convention} {word code called : List Char → Prop}
  {scopes last : List ScopeKind} {tokens : List Token} {token : Token}

namespace Text

/-- What is left of a text without its blanks and its pluses. -/
def substance (text : List Char) : List Char :=
  (visible text).filter fun c => c != '+'

private theorem substance_append (first second : List Char) :
    substance (first ++ second) = substance first ++ substance second := by
  rw [substance, visible_append, List.filter_append, substance, substance]

end Text

/-- What the text of a token has besides blanks and pluses, if there is anything. -/
def Token.substance? (token : Token) : Option (List Char) :=
  if Text.substance token.spelled = [] then none else some (Text.substance token.spelled)

private theorem flatten_substance? (tokens : List Token) :
    (tokens.filterMap Token.substance?).flatten =
      Text.substance (tokens.flatMap Token.spelled) := by
  induction tokens with
  | nil => rfl
  | cons token rest ih =>
      rw [List.flatMap_cons, Text.substance_append, ← ih]
      by_cases empty : Text.substance token.spelled = []
      · have nothing : token.substance? = none := if_pos empty
        rw [List.filterMap_cons_none nothing, empty, List.nil_append]
      · have something : token.substance? = some (Text.substance token.spelled) := if_neg empty
        rw [List.filterMap_cons_some something, List.flatten_cons]

/-- Resolving a raw token does not change how it is spelled. -/
theorem IsRaw.spelled_resolveToken (raw : IsRaw word code token) (previous : Option Token) :
    (resolveToken convention previous token).spelled = token.spelled := by
  cases raw with
  | @word text _ =>
      rw [resolveToken, if_neg (by simp), if_pos ⟨rfl, rfl⟩]
      rcases classify_cases convention text with sort | sort | sort <;> rw [sort] <;> rfl
  | @operator c mark =>
      rw [resolveToken, if_pos rfl]
      split
      · rename_i sign
        split
        · rfl
        · rcases sign with plus | minus
          · obtain rfl := List.singleton_inj.mp plus
            rfl
          · obtain rfl := List.singleton_inj.mp minus
            rfl
      · split <;> rfl
  | comparison _ =>
      rw [resolveToken, if_pos rfl, if_neg (by simp)]
      split <;> rfl
  | _ => rfl

/-- Finishing a stream keeps what a raw token has besides blanks and pluses. -/
theorem IsRaw.survives (raw : IsRaw word code token) :
    Survives convention Token.substance? token where
  blank sort := by
    cases raw with
    | blank => rfl
    | _ => cases sort
  resolved previous := by
    rw [Token.substance?, Token.substance?, raw.spelled_resolveToken]
  discarded previous dropped := by
    have visible : token.kind ≠ .blank := by
      intro blank
      rw [resolveToken, if_neg (by simp [blank]), if_neg (by simp [blank]), blank] at dropped
      cases dropped
    have same := @IsRaw.spelled_resolveToken convention word code token raw previous
    have resolved := @resolveToken_isResolved convention word code token raw visible previous
    rw [Token.substance?, ← same]
    generalize resolveToken convention previous token = finished at dropped resolved
    cases resolved with
    | plus => rfl
    | _ => cases dropped

private theorem Leads.survives_substance
    (course : Leads convention (IsRaw word code) called scopes tokens last) :
    ∀ token ∈ tokens, Survives convention Token.substance? token := by
  refine course.forall_mem (fun token raw => raw.survives) ?_ ?_ ?_
  · intro c separator
    simp only [List.mem_cons, List.not_mem_nil, or_false] at separator
    rcases separator with rfl | rfl <;>
      exact ⟨⟨nofun, fun _ => rfl, fun _ => nofun⟩, ⟨nofun, fun _ => rfl, fun _ => nofun⟩⟩
  · intro kind name
    cases kind <;> exact ⟨nofun, fun _ => rfl, fun _ => nofun⟩
  · intro kind
    cases kind <;> exact ⟨nofun, fun _ => rfl, fun _ => nofun⟩

/-- Finishing a stream drops nothing but blanks and pluses. -/
theorem Leads.substance_finishStream
    (course : Leads convention (IsRaw word code) called scopes tokens last) :
    Text.substance ((SheetFormula.finishStream convention tokens).flatMap Token.spelled) =
      Text.substance (tokens.flatMap Token.spelled) := by
  rw [← flatten_substance?, ← flatten_substance?,
    seen_finishStream rfl course.survives_substance]

/-- The short form of a formula that calls no reserved name holds the body of the formula, followed
by what completes it, once all blanks and pluses are deleted from both. -/
theorem minify_substance {formula : List Char} (read : tokenize convention formula = .ok tokens)
    (unreserved : Unreserved (calledNames convention formula)) :
    ∃ scanner short, scanFormula convention formula = .ok scanner ∧
      minify convention formula = .ok ('=' :: short) ∧
      Text.substance short = Text.substance (formulaBody formula ++ scanner.completion) := by
  obtain ⟨scanner, scanned, rfl⟩ := tokenize_eq_ok.mp read
  have started : (Scanner.start formula).Sound convention fun _ => True :=
    Scanner.sound_start formula
  have sound := started.run (fun _ _ => trivial) scanned
  have stream := sound.finish_stream (sound.stream.mono fun _ raw => raw.weaken) sound.leftover_raw
  refine ⟨scanner, _, scanned,
    (renderFormula_eq read).trans (TemplateSet.renderPlain_minify _), ?_⟩
  have account : Text.visible scanner.account = Text.visible (formulaBody formula) :=
    started.account_run unreserved scanned
  calc Text.substance (Text.trim ((finishStream convention scanner.finish.toList).flatMap
        Token.spelled))
      = Text.substance ((finishStream convention scanner.finish.toList).flatMap Token.spelled) := by
        rw [Text.substance, Text.visible_trim, Text.substance]
    _ = Text.substance (scanner.account ++ scanner.completion) := by
        rw [stream.leads.substance_finishStream, sound.account_finish]
    _ = Text.substance (formulaBody formula ++ scanner.completion) := by
        rw [Text.substance, Text.visible_append, account, ← Text.visible_append, Text.substance]

/-- A formula with dropped and kept pluses that ends inside a text, in an array, in a call. -/
theorem minify_substance_unclosed :
    ∃ tokens scanner short,
      tokenize .us " = +SUM( 1E+5 , (A1+ +2), \x7b-1;\"x\"\" +".toList = .ok tokens ∧
      Unreserved (calledNames .us " = +SUM( 1E+5 , (A1+ +2), \x7b-1;\"x\"\" +".toList) ∧
      scanFormula .us " = +SUM( 1E+5 , (A1+ +2), \x7b-1;\"x\"\" +".toList = .ok scanner ∧
      scanner.completion = "\"\x7d)".toList ∧
      minify .us " = +SUM( 1E+5 , (A1+ +2), \x7b-1;\"x\"\" +".toList = .ok ('=' :: short) ∧
      Text.substance short = "SUM(1E5,(A12),\x7b-1;\"x\"\"\"\x7d)".toList := by
  have read : ∃ tokens,
      tokenize .us " = +SUM( 1E+5 , (A1+ +2), \x7b-1;\"x\"\" +".toList = .ok tokens := ⟨_, rfl⟩
  have unreserved :
      Unreserved (calledNames .us " = +SUM( 1E+5 , (A1+ +2), \x7b-1;\"x\"\" +".toList) := by
    decide +kernel
  obtain ⟨tokens, read⟩ := read
  obtain ⟨scanner, short, scanned, written, kept⟩ := minify_substance read unreserved
  have ended : scanner.completion = "\"\x7d)".toList := by
    obtain rfl := Except.ok.inj scanned
    rfl
  refine ⟨tokens, scanner, short, read, unreserved, scanned, ended, written, ?_⟩
  rw [kept, ended]
  decide +kernel

end SheetFormula
