import SheetFormula.Proofs.Binding.Segments
import Mathlib.Data.List.Forall2

/-!
# The stretches of a formula among its bytes

A text is kept as bytes, and a quote can be found among them without reading characters: no other
character has the byte of a quote in its encoding (`Text.quoteByte_mem_bytes`).  `ByteSpan.cut` goes
through the bytes and remembers only where the stretch at hand began.  It finds the stretches into
which the text is divided, and it cuts only between characters (`ByteSpan.marks_cut`).
-/

namespace SheetFormula

/-- The stretch lies between quotes. -/
def Segment.inQuotes : Segment → Bool
  | outside _ => false
  | quoted _ => true

namespace Text

variable {text : List Char}

/-- The bytes of a text in UTF-8. -/
def bytes (text : List Char) : List UInt8 :=
  text.flatMap String.utf8EncodeChar

/-- The byte of a quote. -/
def quoteByte : UInt8 := 34

private theorem bytes_append (first second : List Char) :
    bytes (first ++ second) = bytes first ++ bytes second :=
  List.flatMap_append

private theorem bytes_eq_nil_iff : bytes text = [] ↔ text = [] := by
  simp [bytes, List.flatMap_eq_nil_iff, ← List.eq_nil_iff_forall_not_mem]

private theorem quoteByte_eq_ofNat_iff {n : Nat} (small : n < UInt8.size) :
    quoteByte = UInt8.ofNat n ↔ n = 34 := by
  rw [← UInt8.toNat_inj, UInt8.toNat_ofNat_of_lt' small]
  exact eq_comm

/-- No other character has the byte of a quote in its encoding. -/
theorem quoteByte_mem_utf8EncodeChar (c : Char) :
    quoteByte ∈ String.utf8EncodeChar c ↔ c = '"' := by
  have code : c = '"' ↔ c.val.toNat = 34 := by
    rw [← Char.val_inj, ← UInt32.toNat_inj]
    rfl
  have size : UInt8.size = 256 := rfl
  rw [code, String.utf8EncodeChar]
  generalize c.val.toNat = n
  -- A character takes one byte, its code, or up to four bytes, which are all above 127.
  split_ifs <;>
    simp (disch := omega) only [List.mem_cons, List.not_mem_nil, or_false,
      quoteByte_eq_ofNat_iff] <;>
    omega

private theorem quoteByte_mem_bytes : quoteByte ∈ bytes text ↔ '"' ∈ text := by
  simp [bytes, quoteByte_mem_utf8EncodeChar]

/-- A text may be cut behind any of its beginnings. -/
theorem isValid_length_bytes (before after : List Char) :
    String.Pos.Raw.IsValid (String.ofList (before ++ after)) ⟨(bytes before).length⟩ := by
  rw [String.Pos.Raw.isValid_ofList]
  refine ⟨before.length, ?_⟩
  rw [List.take_left, ← String.size_toByteArray, String.toByteArray_ofList, List.utf8Encode,
    List.size_toByteArray]
  rfl

end Text

/-- A stretch of a text by the offsets of its bytes: where it begins, and where it has ended. -/
structure ByteSpan where
  inQuotes : Bool
  start : Nat
  stop : Nat
  deriving DecidableEq, Repr

namespace ByteSpan

open Text

variable {stretch inner : List Char} {parts : List Segment} {start : Nat}

/-- Cut the bytes that follow the offset `here`, within a stretch that began at the offset `start`.
A quote that opens a stretch is its first byte, and a quote that closes one is its last. -/
def cutFrom : (inQuotes : Bool) → (start here : Nat) → List UInt8 → List ByteSpan
  | inQuotes, start, here, [] => if start < here then [⟨inQuotes, start, here⟩] else []
  | false, start, here, byte :: rest =>
      if byte = quoteByte then ⟨false, start, here⟩ :: cutFrom true here (here + 1) rest
      else cutFrom false start (here + 1) rest
  | true, start, here, byte :: rest =>
      if byte = quoteByte then ⟨true, start, here + 1⟩ :: cutFrom false (here + 1) (here + 1) rest
      else cutFrom true start (here + 1) rest

/-- Cut the bytes of a text at the quotes among them. -/
def cut (bytes : List UInt8) : List ByteSpan :=
  cutFrom false 0 0 bytes

/-- The span of a stretch that begins at the offset. -/
def ofSegment (start : Nat) (segment : Segment) : ByteSpan :=
  ⟨segment.inQuotes, start, start + (bytes segment.text).length⟩

/-- The spans of stretches that follow each other from the offset on. -/
def ofSegments (start : Nat) : List Segment → List ByteSpan
  | [] => []
  | segment :: parts =>
      ofSegment start segment :: ofSegments (start + (bytes segment.text).length) parts

private theorem cutFrom_append {bytes : List UInt8} (unquoted : quoteByte ∉ bytes) (inQuotes : Bool)
    (start here : Nat) (rest : List UInt8) :
    cutFrom inQuotes start here (bytes ++ rest) =
      cutFrom inQuotes start (here + bytes.length) rest := by
  induction bytes generalizing here with
  | nil => rfl
  | cons byte bytes ih =>
      obtain ⟨other, unquoted⟩ := not_or.mp (mt List.mem_cons.mpr unquoted)
      rw [List.cons_append, List.length_cons, Nat.add_comm bytes.length, ← Nat.add_assoc]
      cases inQuotes with
      | false => rw [cutFrom, if_neg (Ne.symm other), ih unquoted]
      | true => rw [cutFrom, if_neg (Ne.symm other), ih unquoted]

private theorem cutFrom_of_unquoted (present : stretch ≠ []) (unquoted : '"' ∉ stretch) :
    cutFrom false start start (bytes stretch) = [ofSegment start (.outside stretch)] := by
  have whole := cutFrom_append (mt quoteByte_mem_bytes.mp unquoted) false start start []
  have longer := List.length_pos_iff.mpr (mt bytes_eq_nil_iff.mp present)
  rw [List.append_nil] at whole
  rw [whole, cutFrom, if_pos (Nat.lt_add_of_pos_right longer)]
  rfl

private theorem cutFrom_of_quote (unquoted : '"' ∉ stretch) (rest : List Char) :
    cutFrom false start start (bytes (stretch ++ '"' :: rest)) =
      ofSegment start (.outside stretch) ::
        cutFrom true (start + (bytes stretch).length) (start + (bytes stretch).length + 1)
          (bytes rest) := by
  rw [bytes_append, cutFrom_append (mt quoteByte_mem_bytes.mp unquoted)]
  rfl

private theorem cutFrom_of_unclosed (inside : '"' ∉ inner) :
    cutFrom true start (start + 1) (bytes inner) = [ofSegment start (.quoted ('"' :: inner))] := by
  have whole := cutFrom_append (mt quoteByte_mem_bytes.mp inside) true start (start + 1) []
  have length : (bytes ('"' :: inner)).length = 1 + (bytes inner).length := Nat.add_comm _ _
  rw [List.append_nil] at whole
  rw [whole, cutFrom, if_pos (by omega), ofSegment, Segment.text, length, ← Nat.add_assoc]
  rfl

private theorem cutFrom_of_closed (inside : '"' ∉ inner) (rest : List Char) :
    cutFrom true start (start + 1) (bytes (inner ++ '"' :: rest)) =
      ofSegment start (.quoted ('"' :: (inner ++ ['"']))) ::
        cutFrom false (start + (bytes ('"' :: (inner ++ ['"']))).length)
          (start + (bytes ('"' :: (inner ++ ['"']))).length) (bytes rest) := by
  have length : start + (bytes ('"' :: (inner ++ ['"']))).length =
      start + 1 + (bytes inner).length + 1 := by
    change start + ((bytes (inner ++ ['"'])).length + 1) = _
    rw [bytes_append, List.length_append]
    change start + ((bytes inner).length + 1 + 1) = _
    omega
  rw [bytes_append, cutFrom_append (mt quoteByte_mem_bytes.mp inside), ofSegment, Segment.text,
    length]
  rfl

/-- The cuts of a text follow its stretches. -/
theorem cutFrom_bytes (alternate : Segment.Alternate parts) (start : Nat) :
    cutFrom false start start (bytes (parts.flatMap Segment.text)) = ofSegments start parts := by
  induction alternate generalizing start with
  | nil => exact if_neg (Nat.lt_irrefl start)
  | last present unquoted =>
      rw [List.flatMap_singleton]
      exact cutFrom_of_unquoted present unquoted
  | unclosed unquoted inside =>
      rw [List.flatMap_cons, List.flatMap_singleton]
      exact (cutFrom_of_quote unquoted _).trans (congrArg _ (cutFrom_of_unclosed inside))
  | closed unquoted inside _ ih =>
      rw [Segment.text_closed, cutFrom_of_quote unquoted, cutFrom_of_closed inside, ih]
      rfl

/-- The span marks the stretch in the text: it begins and ends between characters, and the bytes
within it are those of the stretch. -/
structure Marks (text : List Char) (segment : Segment) (span : ByteSpan) : Prop where
  kind : span.inQuotes = segment.inQuotes
  starts : String.Pos.Raw.IsValid (String.ofList text) ⟨span.start⟩
  stops : String.Pos.Raw.IsValid (String.ofList text) ⟨span.stop⟩
  content : (bytes text).extract span.start span.stop = bytes segment.text

private theorem marks_ofSegment (before after : List Char) (segment : Segment) :
    Marks (before ++ (segment.text ++ after)) segment
      (ofSegment (bytes before).length segment) where
  kind := rfl
  starts := isValid_length_bytes before _
  stops := by
    have valid := isValid_length_bytes (before ++ segment.text) after
    rwa [bytes_append, List.length_append, List.append_assoc] at valid
  content := by
    rw [ofSegment, bytes_append, bytes_append, List.extract_eq_take_drop, List.drop_left,
      Nat.add_sub_cancel_left, List.take_left]

private theorem marks_ofSegments (parts : List Segment) (before : List Char) :
    List.Forall₂ (Marks (before ++ parts.flatMap Segment.text)) parts
      (ofSegments (bytes before).length parts) := by
  induction parts generalizing before with
  | nil => exact .nil
  | cons segment parts ih =>
      refine .cons (marks_ofSegment before _ segment) ?_
      have later := ih (before ++ segment.text)
      rwa [bytes_append, List.length_append, List.append_assoc] at later

private theorem marks_cut (text : List Char) :
    List.Forall₂ (Marks text) (Segment.divide text) (cut (bytes text)) := by
  have cuts := cutFrom_bytes (Segment.alternate_divide text) 0
  have marks := marks_ofSegments (Segment.divide text) []
  rw [Segment.text_divide] at cuts marks
  rw [cut, cuts]
  exact marks

end ByteSpan

namespace Segment

/-- A text is divided at its quotes in the only way into stretches that take turns and make up the
text.  A change, whatever state it keeps, is applied once to each stretch outside of quotes, from
the left, and the stretches between quotes are copied, so a change that alters nothing gives the
text back.  The bytes of the text are cut into the same stretches, and only between characters. -/
theorem mapOutside_divided {σ : Type} (text : List Char) :
    (∀ parts, divide text = parts ↔ Alternate parts ∧ parts.flatMap Segment.text = text) ∧
    (∀ (change : List Char → StateM σ (List Char)) (state last : σ) (written : List Char),
      (mapOutsideM change text).run state = (written, last) ↔
        Changes change (divide text) state written last) ∧
    (∀ change : List Char → List Char,
      mapOutside change text = (divide text).flatMap (changed change)) ∧
    mapOutside id text = text ∧
    List.Forall₂ (ByteSpan.Marks text) (divide text) (ByteSpan.cut (Text.bytes text)) :=
  ⟨fun _ => divide_eq_iff, fun _ _ _ _ => run_mapOutsideM, fun change => mapOutside_eq change text,
    mapOutside_id text, ByteSpan.marks_cut text⟩

/-- A closed stretch and one that is left open, with nothing between them. -/
example : ByteSpan.cut (Text.bytes "é\"ß\"\"".toList) =
    [⟨false, 0, 2⟩, ⟨true, 2, 6⟩, ⟨false, 6, 6⟩, ⟨true, 6, 7⟩] := by
  decide +kernel

end Segment

end SheetFormula
