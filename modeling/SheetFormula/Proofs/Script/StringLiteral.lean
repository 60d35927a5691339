import SheetFormula.Proofs.Scanner.Sound
import SheetFormula.Proofs.Script.Structure

/-!
# String literals in scripts

A text operand stands in a script as a string literal.  `Text.readLiteral?` reads such a literal the
way a script does, and it reads exactly what `Text.stringLiteral` writes
(`Text.readLiteral?_eq_some_iff`), whatever follows.  So no text runs out of its literal, and every
text operand of a formula can be read back at its place in the script (`toScript_texts`).
-/

namespace SheetFormula

namespace Text

variable {text rest written : List Char} {c d : Char}

/-- The character that an escaped character stands for. -/
def unescaped? (c : Char) : Option Char :=
  if c = '\\' ∨ c = '"' then some c
  else if c = 'n' then some '\n'
  else if c = 'r' then some '\r'
  else none

/-- Read a string literal from behind its opening quote to behind the first quote that is not
escaped: the text that it denotes, and what follows it.  No line ends inside a literal. -/
def readLiteralBody? : List Char → Option (List Char × List Char)
  | [] => none
  | ['\\'] => none
  | '\\' :: c :: rest =>
      (unescaped? c).bind fun d =>
        (readLiteralBody? rest).map fun (text, rest) => (d :: text, rest)
  | '"' :: rest => some ([], rest)
  | c :: rest =>
      if c = '\n' ∨ c = '\r' then none
      else (readLiteralBody? rest).map fun (text, rest) => (c :: text, rest)

/-- Read a string literal: the text that it denotes, and what follows it. -/
def readLiteral? : List Char → Option (List Char × List Char)
  | '"' :: rest => readLiteralBody? rest
  | _ => none

private theorem unescaped?_eq_some_iff : unescaped? c = some d ↔ literalChar d = ['\\', c] := by
  unfold unescaped? literalChar
  grind

private theorem literalChar_of_plain (backslash : c ≠ '\\') (quote : c ≠ '"') (line : c ≠ '\n')
    (back : c ≠ '\r') : literalChar c = [c] := by
  simp [literalChar, backslash, quote, line, back]

/-- The reader takes what is written for a character as that character. -/
theorem readLiteralBody?_literalChar (c : Char) (rest : List Char) :
    readLiteralBody? (literalChar c ++ rest) =
      (readLiteralBody? rest).map fun (text, rest) => (c :: text, rest) := by
  by_cases backslash : c = '\\'
  · subst backslash
    rfl
  by_cases quote : c = '"'
  · subst quote
    rfl
  by_cases line : c = '\n'
  · subst line
    rfl
  by_cases back : c = '\r'
  · subst back
    rfl
  -- Any other character is written as it is and meets the last case of the reader.
  rw [literalChar_of_plain backslash quote line back, List.singleton_append, readLiteralBody?,
    if_neg (not_or.mpr ⟨line, back⟩)]
  · exact fun bare _ => backslash bare
  · exact fun _ _ bare _ => backslash bare
  · exact quote

private theorem readLiteralBody?_eq_some_iff :
    readLiteralBody? written = some (text, rest) ↔
      written = text.flatMap literalChar ++ '"' :: rest := by
  constructor
  · intro read
    fun_induction readLiteralBody? written generalizing text with
    | case1 => cases read
    | case2 => cases read
    | case3 c tail ih =>
        obtain ⟨d, escape, read⟩ := Option.bind_eq_some_iff.mp read
        obtain ⟨⟨inner, after⟩, inside, same⟩ := Option.map_eq_some_iff.mp read
        obtain ⟨rfl, rfl⟩ := Prod.mk.inj same
        rw [List.flatMap_cons, unescaped?_eq_some_iff.mp escape, ih inside]
        rfl
    | case4 tail =>
        obtain ⟨rfl, rfl⟩ := Prod.mk.inj (Option.some.inj read)
        rfl
    | case5 c tail => cases read
    | case6 c tail bare escape quote level ih =>
        obtain ⟨⟨inner, after⟩, inside, same⟩ := Option.map_eq_some_iff.mp read
        obtain ⟨rfl, rfl⟩ := Prod.mk.inj same
        obtain ⟨line, back⟩ := not_or.mp level
        have backslash : c ≠ '\\' := by
          intro same
          cases tail with
          | nil => exact bare same rfl
          | cons d others => exact escape d others same rfl
        rw [List.flatMap_cons, literalChar_of_plain backslash quote line back, ih inside]
        rfl
  · rintro rfl
    induction text with
    | nil => rfl
    | cons c text ih =>
        rw [List.flatMap_cons, List.append_assoc, readLiteralBody?_literalChar, ih]
        rfl

/-- The reader reads exactly the string literals, and it stops right behind them. -/
theorem readLiteral?_eq_some_iff :
    readLiteral? written = some (text, rest) ↔ written = stringLiteral text ++ rest := by
  have whole : stringLiteral text ++ rest = '"' :: (text.flatMap literalChar ++ '"' :: rest) := by
    simp [stringLiteral]
  rw [whole]
  constructor
  · intro read
    unfold readLiteral? at read
    split at read
    · rw [readLiteralBody?_eq_some_iff.mp read]
    · cases read
  · rintro rfl
    exact readLiteralBody?_eq_some_iff.mpr rfl

private theorem line_not_mem_stringLiteral (text : List Char) :
    '\n' ∉ stringLiteral text ∧ '\r' ∉ stringLiteral text := by
  have level (c : Char) : '\n' ∉ literalChar c ∧ '\r' ∉ literalChar c := by
    unfold literalChar
    grind
  simp [stringLiteral, level]

private theorem stringLiteral_visible (text : List Char) :
    BeginsVisibly (stringLiteral text) ∧ EndsVisibly (stringLiteral text) :=
  ⟨⟨'"', rfl, rfl⟩, endsVisibly_concat rfl ('"' :: text.flatMap literalChar)⟩

end Text

namespace Script

variable {convention : Convention} {frames : List Frame} {token : Token}

/-- The frames that are open after tokens. -/
def framesFrom (convention : Convention) (frames : List Frame) (tokens : List Token) : List Frame :=
  tokens.foldl (fun frames token => (renditionStep convention frames token).2) frames

private theorem textFrom_cons (rest : List Token) :
    textFrom convention frames (token :: rest) =
      (renditionStep convention frames token).1.text token ++
        textFrom convention (renditionStep convention frames token).2 rest := rfl

private theorem textFrom_append (before after : List Token) :
    textFrom convention frames (before ++ after) =
      textFrom convention frames before ++
        textFrom convention (framesFrom convention frames before) after := by
  induction before generalizing frames with
  | nil => rfl
  | cons token rest ih =>
      rw [List.cons_append, textFrom_cons, textFrom_cons, ih, List.append_assoc]
      rfl

/-- A text operand is written as a string literal, whatever is open around it. -/
theorem textFrom_text (text : token.isText = true) (after : List Token) :
    textFrom convention frames (token :: after) =
      Text.stringLiteral token.value ++
        textFrom convention (framesFrom convention frames [token]) after := by
  obtain ⟨value, kind, role⟩ := token
  obtain ⟨operand, isText⟩ : kind = .operand ∧ role = some .text := by
    simpa [Token.isText] using text
  subst operand isText
  rfl

end Script

/-- A reader of string literals that is run on the literal of a text, with anything behind it, reads
that literal and nothing else, and gives the text; no line ends in the literal.  So each text
operand of a formula stands in the script, between what is written for the tokens before it and
behind it, as a literal that is read as the value of the operand. -/
theorem toScript_texts (convention : Convention) (language : ScriptLanguage) :
    (∀ written text rest, Text.readLiteral? written = some (text, rest) ↔
      written = Text.stringLiteral text ++ rest) ∧
    (∀ text, '\n' ∉ Text.stringLiteral text ∧ '\r' ∉ Text.stringLiteral text) ∧
    ∀ formula before token after,
      tokenize convention formula = .ok (before ++ token :: after) → token.isText = true →
        ∃ front back,
          toScript convention language formula =
            .ok (front ++ (Text.stringLiteral token.value ++ back)) ∧
          Text.readLiteral? (Text.stringLiteral token.value ++ back) = some (token.value, back) ∧
          front = Text.trimStart (Script.textFrom convention [] before) ∧
          back = Text.trimEnd (Script.textFrom convention
            (Script.framesFrom convention [] (before ++ [token])) after) := by
  refine ⟨fun _ _ _ => Text.readLiteral?_eq_some_iff, Text.line_not_mem_stringLiteral, ?_⟩
  intro formula before token after read text
  obtain ⟨begins, ends⟩ := Text.stringLiteral_visible token.value
  refine ⟨_, _, ?_, Text.readLiteral?_eq_some_iff.mpr rfl, rfl, rfl⟩
  rw [Script.toScript_eq read, Script.textFrom_append, Script.textFrom_text text,
    trim_append_append begins ends, Script.framesFrom, Script.framesFrom, Script.framesFrom,
    List.foldl_append]

/-- A text with quotes and a line end that ends in a backslash, in a sum behind another text. -/
theorem toScript_texts_backslash :
    ∃ front back,
      toScript .us .javaScript "=SUM(\"a\",\"\"\"b\"\"\n\\\")&\"\\\"".toList =
        .ok (front ++ (Text.stringLiteral "\"b\"\n\\".toList ++ back)) ∧
      Text.readLiteral? (Text.stringLiteral "\"b\"\n\\".toList ++ back) =
        some ("\"b\"\n\\".toList, back) ∧
      front = "(\"a\"+".toList ∧ back = ")+\"\\\\\"".toList := by
  have read : tokenize .us "=SUM(\"a\",\"\"\"b\"\"\n\\\")&\"\\\"".toList = .ok
      ([ScopeKind.function.startToken "SUM".toList, ⟨['a'], .operand, some .text⟩,
        argumentToken ','] ++ ⟨"\"b\"\n\\".toList, .operand, some .text⟩ ::
        [ScopeKind.function.stopToken, ⟨['&'], .infixOperator, none⟩,
          ⟨['\\'], .operand, some .text⟩]) := by
    rfl
  obtain ⟨front, back, written, literal, before, behind⟩ :=
    (toScript_texts .us .javaScript).2.2 _ _ _ _ read rfl
  exact ⟨front, back, written, literal, before.trans (by decide +kernel),
    behind.trans (by decide +kernel)⟩

end SheetFormula
