import SheetFormula.Proofs.Binding.Pieces

/-!
# Where references stand

A reference occurs at the places outside of quotes where it fits the pattern
(`RowReference.Occurs`), and quotes count from the start of the formula.  A formula is read from the
left, and at each place the reference that occurs there is taken, or else one character
(`Piece.Reads`).  This determines the pieces of a formula (`Piece.Reads.unique`), and the pieces
found stretch by stretch are those (`Piece.reads_ofFormula`).
-/

namespace SheetFormula

namespace RowReference

/-- The reference stands between two texts, outside of quotes. -/
structure Occurs (before : List Char) (found : RowReference) (after : List Char) : Prop where
  outside : before.count '"' % 2 = 0
  unquoted : '"' ∉ found.written
  pattern : Matches before found after

/-- A stretch ends with the text or at a quote. -/
def IsEdge (ahead : List Char) : Prop :=
  ∀ c ∈ ahead.head?, c = '"'

private theorem IsEdge.isWordNeighbour_append {ahead : List Char} (edge : IsEdge ahead)
    (text : List Char) :
    Text.isWordNeighbour (text ++ ahead).head? = Text.isWordNeighbour text.head? := by
  cases text with
  | cons c rest => rfl
  | nil =>
      cases ahead with
      | nil => rfl
      | cons c rest =>
          obtain rfl := edge c rfl
          rfl

/-- A reference that begins in a stretch lies within it. -/
theorem Occurs.within {before text ahead rest : List Char} {found : RowReference}
    (occurs : Occurs before found rest) (edge : IsEdge ahead)
    (split : text ++ ahead = found.written ++ rest) :
    ∃ after, text = found.written ++ after ∧ Matches before found after := by
  rcases List.append_eq_append_iff.mp split with
    ⟨beyond, longer, shorter⟩ | ⟨after, longer, shorter⟩
  · cases beyond with
    | nil =>
        rw [List.append_nil] at longer
        refine ⟨[], by rw [longer, List.append_nil], occurs.pattern.congr_after ?_⟩
        rw [← List.nil_append rest, ← shorter]
        exact edge.isWordNeighbour_append []
    | cons c more =>
        obtain rfl : c = '"' := edge c (by rw [shorter]; rfl)
        exact (occurs.unquoted (by simp [longer])).elim
  · refine ⟨after, longer, occurs.pattern.congr_after ?_⟩
    rw [shorter]
    exact edge.isWordNeighbour_append after

end RowReference

namespace Piece

open RowReference

/-- The piece is the one to be read between two texts: a reference that occurs there, or a character
where none begins. -/
def Fits (before : List Char) (piece : Piece) (after : List Char) : Prop :=
  match piece with
  | reference found => Occurs before found after
  | char c => ∀ found rest, c :: after = found.written ++ rest → ¬Occurs before found rest

/-- The pieces are read one after the other, between two texts. -/
def Reads (before : List Char) : List Piece → (after : List Char) → Prop
  | [], _ => True
  | piece :: rest, after =>
      Fits before piece (rest.flatMap written ++ after) ∧ Reads (before ++ piece.written) rest after

private theorem reads_append {before after : List Char} {first second : List Piece} :
    Reads before (first ++ second) after ↔
      Reads before first (second.flatMap written ++ after) ∧
        Reads (before ++ first.flatMap written) second after := by
  induction first generalizing before with
  | nil => simp [Reads]
  | cons piece rest ih =>
      simp only [List.cons_append, Reads, ih, List.flatMap_append, List.flatMap_cons,
        List.append_assoc, and_assoc]

private theorem Fits.written_ne_nil {before after : List Char} {piece : Piece}
    (fits : Fits before piece after) : piece.written ≠ [] := by
  cases piece with
  | char c => exact List.cons_ne_nil _ _
  | reference found => exact fits.pattern.written_ne_nil

/-- Only one piece can be read at a place. -/
theorem Fits.eq {before after otherAfter : List Char} {piece other : Piece}
    (fits : Fits before piece after) (otherFits : Fits before other otherAfter)
    (same : piece.written ++ after = other.written ++ otherAfter) : piece = other := by
  cases piece with
  | char c =>
      cases other with
      | char d => exact congrArg char (List.cons.inj same).1
      | reference found => exact (fits found otherAfter same otherFits).elim
  | reference found =>
      cases other with
      | char d => exact (otherFits found after same.symm fits).elim
      | reference second =>
          have first := (at?_eq_some_iff rfl).mpr ⟨after, rfl, fits.pattern⟩
          have again := (at?_eq_some_iff rfl).mpr ⟨otherAfter, same, otherFits.pattern⟩
          exact congrArg reference (Option.some.inj (first.symm.trans again))

/-- The pieces of a text are determined. -/
theorem Reads.unique {before : List Char} {pieces others : List Piece}
    (reads : Reads before pieces []) (otherReads : Reads before others [])
    (same : pieces.flatMap written = others.flatMap written) : pieces = others := by
  induction pieces generalizing before others with
  | nil =>
      cases others with
      | nil => rfl
      | cons other rest =>
          have empty := (List.append_eq_nil_iff.mp same.symm).1
          exact (otherReads.1.written_ne_nil empty).elim
  | cons piece rest ih =>
      cases others with
      | nil =>
          have empty := (List.append_eq_nil_iff.mp same).1
          exact (reads.1.written_ne_nil empty).elim
      | cons other otherRest =>
          rw [List.flatMap_cons, List.flatMap_cons] at same
          obtain rfl := reads.1.eq otherReads.1 (by simpa using same)
          rw [ih reads.2 otherReads.2 (List.append_cancel_left same)]

/-- The pieces found in a stretch are those to be read there. -/
theorem reads_ofStretchFrom {before text ahead : List Char} {previous : Option Char} {skipped : Nat}
    (outside : before.count '"' % 2 = 0) (unquoted : '"' ∉ text) (edge : IsEdge ahead)
    (same : Text.isWordNeighbour before.getLast? = Text.isWordNeighbour previous) :
    Reads (before ++ text.take skipped) (ofStretchFrom previous skipped text) ahead := by
  induction text generalizing before previous skipped with
  | nil => trivial
  | cons c rest ih =>
      obtain ⟨other, restUnquoted⟩ := not_or.mp (mt List.mem_cons.mpr unquoted)
      have later (skipped : Nat) : Reads (before ++ c :: rest.take skipped)
          (ofStretchFrom (some c) skipped rest) ahead := by
        have count : (before ++ [c]).count '"' % 2 = 0 := by
          rwa [List.count_append, List.count_singleton, beq_eq_false_iff_ne.mpr (Ne.symm other)]
        have read := @ih (before ++ [c]) (some c) skipped count restUnquoted
          (by rw [List.getLast?_concat])
        rwa [List.append_assoc] at read
      cases skipped with
      | succ skipped => exact later skipped
      | zero =>
          rw [List.take_zero, List.append_nil, ofStretchFrom]
          cases found : at? previous (c :: rest) with
          | none =>
              refine ⟨fun reference beyond split occurs => ?_, later 0⟩
              rw [written_ofStretchFrom, List.drop_zero, ← List.cons_append] at split
              obtain ⟨after, within⟩ := occurs.within edge split
              rw [(at?_eq_some_iff same).mpr ⟨after, within⟩] at found
              cases found
          | some reference =>
              obtain ⟨after, split, fits⟩ := (at?_eq_some_iff same).mp found
              obtain ⟨d, word, written⟩ := List.exists_cons_of_ne_nil fits.written_ne_nil
              rw [written, List.cons_append] at split
              obtain ⟨rfl, rfl⟩ := List.cons.inj split
              have taken := later (reference.written.length - 1)
              rw [written, List.length_cons, Nat.add_sub_cancel, List.take_left] at taken
              refine ⟨⟨outside, ?_, fits.congr_after ?_⟩, ?_⟩
              · rw [written]
                exact fun quote => unquoted (List.mem_append_left after quote)
              · rw [written_ofStretchFrom, written, List.length_cons, Nat.add_sub_cancel,
                  List.drop_left]
                exact (edge.isWordNeighbour_append after).symm
              · rw [Piece.written, written]
                exact taken

private theorem reads_ofStretch {before text ahead : List Char} (outside : before.count '"' % 2 = 0)
    (unquoted : '"' ∉ text) (edge : IsEdge ahead)
    (apart : Text.isWordNeighbour before.getLast? = false) :
    Reads before (ofStretch text) ahead := by
  have read := @reads_ofStretchFrom before text ahead none 0 outside unquoted edge apart
  rwa [List.take_zero, List.append_nil] at read

private theorem fits_quote (before after : List Char) : Fits before (char '"') after := by
  intro found rest split occurs
  obtain ⟨c, word, written⟩ := List.exists_cons_of_ne_nil occurs.pattern.written_ne_nil
  rw [written, List.cons_append] at split
  obtain ⟨rfl, _⟩ := List.cons.inj split
  exact occurs.unquoted (by simp [written])

/-- Between quotes every character stands for itself. -/
theorem reads_inside {before text : List Char} (inside : before.count '"' % 2 = 1)
    (unquoted : '"' ∉ text) (ahead : List Char) : Reads before (text.map char) ahead := by
  induction text generalizing before with
  | nil => trivial
  | cons c rest ih =>
      obtain ⟨other, restUnquoted⟩ := not_or.mp (mt List.mem_cons.mpr unquoted)
      refine ⟨fun found beyond _ occurs => ?_, ih ?_ restUnquoted⟩
      · have outside := occurs.outside
        omega
      · rwa [Piece.written, List.count_append, List.count_singleton,
          beq_eq_false_iff_ne.mpr (Ne.symm other)]

/-- The pieces of a stretch of a formula. -/
def ofSegment : Segment → List Piece
  | .outside stretch => ofStretch stretch
  | .quoted stretch => stretch.map char

private theorem ofFormula_eq (text : List Char) :
    ofFormula text = (Segment.divide text).flatMap ofSegment := by
  refine congrArg (Segment.divide text).flatMap (funext fun segment => ?_)
  cases segment with
  | outside stretch => rfl
  | quoted stretch => rfl

private theorem written_ofSegment (segment : Segment) :
    (ofSegment segment).flatMap written = segment.text := by
  cases segment with
  | outside stretch => exact written_ofStretchFrom none 0 stretch
  | quoted stretch => simp [ofSegment, List.flatMap_map, written, Segment.text]

/-- In a stretch between quotes, closed or not, every character stands for itself. -/
theorem reads_quoted {before inner close : List Char} (outside : before.count '"' % 2 = 0)
    (unquoted : '"' ∉ inner) (closes : close = [] ∨ close = ['"']) (ahead : List Char) :
    Reads before (('"' :: (inner ++ close)).map char) ahead := by
  have opened : (before ++ ['"']).count '"' % 2 = 1 := by
    rw [List.count_append, List.count_singleton_self]
    omega
  rw [List.map_cons, List.map_append]
  refine ⟨fits_quote _ _, reads_append.mpr ⟨reads_inside opened unquoted _, ?_⟩⟩
  rcases closes with rfl | rfl
  · trivial
  · exact ⟨fits_quote _ _, trivial⟩

/-- A stretch outside of quotes and the stretch between quotes behind it are read one after the
other. -/
theorem reads_turn {before stretch inner close : List Char} {rest : List Piece}
    (outside : before.count '"' % 2 = 0) (apart : Text.isWordNeighbour before.getLast? = false)
    (unquoted : '"' ∉ stretch) (inside : '"' ∉ inner) (closes : close = [] ∨ close = ['"'])
    (later : Reads (before ++ (stretch ++ '"' :: (inner ++ close))) rest []) :
    Reads before (ofStretch stretch ++ (('"' :: (inner ++ close)).map char ++ rest)) [] := by
  have stretchWritten : (ofStretch stretch).flatMap written = stretch :=
    written_ofSegment (.outside stretch)
  have quotedWritten : (('"' :: (inner ++ close)).map char).flatMap written =
      '"' :: (inner ++ close) := written_ofSegment (.quoted ('"' :: (inner ++ close)))
  have still : (before ++ stretch).count '"' % 2 = 0 := by
    rwa [List.count_append, List.count_eq_zero_of_not_mem unquoted]
  rw [reads_append, reads_append, stretchWritten, quotedWritten, List.append_assoc]
  refine ⟨reads_ofStretch outside unquoted ?_ apart, reads_quoted still inside closes _, later⟩
  simp [IsEdge, written]

/-- The pieces of stretches that take turns are read one after the other, up to the end of the text.
-/
private theorem reads_ofSegments {before : List Char} {parts : List Segment}
    (alternate : Segment.Alternate parts) (outside : before.count '"' % 2 = 0)
    (apart : Text.isWordNeighbour before.getLast? = false) :
    Reads before (parts.flatMap ofSegment) [] := by
  induction alternate generalizing before with
  | nil => trivial
  | last _ unquoted =>
      rw [List.flatMap_singleton]
      exact reads_ofStretch outside unquoted (by simp [IsEdge]) apart
  | @unclosed stretch inner unquoted inside =>
      have read := @reads_turn before stretch inner [] [] outside apart unquoted inside (.inl rfl)
        trivial
      rw [List.append_nil, List.append_nil] at read
      rw [List.flatMap_cons, List.flatMap_singleton]
      exact read
  | @closed stretch inner parts unquoted inside _ ih =>
      refine reads_turn outside apart unquoted inside (.inr rfl) (ih ?_ ?_)
      · simp only [List.count_append, List.count_cons_self, List.count_nil,
          List.count_eq_zero_of_not_mem unquoted, List.count_eq_zero_of_not_mem inside]
        omega
      · rw [← List.cons_append, ← List.append_assoc, ← List.append_assoc, List.getLast?_concat]
        rfl

/-- The pieces of a formula are those to be read from its start. -/
theorem reads_ofFormula (text : List Char) : Reads [] (ofFormula text) [] := by
  rw [ofFormula_eq]
  exact reads_ofSegments (Segment.alternate_divide text) rfl rfl

end Piece

end SheetFormula
