import SheetFormula.Proofs.Scanner.Sound

/-!
# The end of a scan

At the end of the text the scanner emits what it was reading and closes the open scopes.  The stream
it leaves behind closes every scope it opens, whatever the text was; if the text did not end inside
a path, a bracket or an error code, all of its words and error codes are complete.
-/

namespace SheetFormula

namespace Scanner

variable {convention : Convention} {called : List Char → Prop} {scanner : Scanner}

/-- The tokens that the end of the text makes of what the scanner is reading. -/
def leftover (scanner : Scanner) : List Token :=
  match scanner.reading with
  | .text | .textQuote => [⟨scanner.pending.reverse, .operand, some .text⟩]
  | .errorCode => [⟨scanner.pending.reverse, .operand, some .error⟩]
  | .comparison first => [⟨[first], .infixOperator, none⟩]
  | _ => scanner.pendingTokens .operand

/-- At the end of the text the scanner emits what it was reading, and then closes all open scopes.
-/
theorem finish_toList :
    scanner.finish.toList =
      scanner.emitted.toList ++ scanner.leftover ++ scanner.kinds.map ScopeKind.stopToken := by
  unfold finish leftover
  cases scanner.reading with
  | text => simp [endText, emitPending, continueAs, kinds]
  | textQuote => simp [endText, emitPending, continueAs, kinds]
  | errorCode => simp [emitPending, kinds]
  | comparison first => simp [emit, kinds]
  | _ => simp [flush_emitted, kinds]

/-- What the scanner is reading is a raw token that can follow the last one. -/
theorem Sound.leftover_stream (sound : scanner.Sound convention called) {plain : Token → Prop}
    (stream : StreamOf convention plain called scanner.emitted.toList scanner.kinds)
    (held : ∀ token ∈ scanner.leftover, plain token) :
    StreamOf convention plain called (scanner.emitted.toList ++ scanner.leftover)
      scanner.kinds := by
  have alone (token : Token) (same : scanner.leftover = [token])
      (meets : ∀ left ∈ scanner.emitted.toList.getLast?, Abuts left token) :
      StreamOf convention plain called (scanner.emitted.toList ++ scanner.leftover)
        scanner.kinds := by
    rw [same] at held ⊢
    refine stream.extend (.plain (held token (by simp)) .done) (.singleton _) ?_
    intro left member right rightMember
    obtain rfl : token = right := Option.some.inj rightMember
    exact meets left member
  have word (reading : ∀ first, scanner.reading ≠ .comparison first)
      (same : scanner.leftover = scanner.pendingTokens .operand) :
      StreamOf convention plain called (scanner.emitted.toList ++ scanner.leftover)
        scanner.kinds := by
    by_cases empty : scanner.pending = []
    · rw [same, pendingTokens_of_empty empty, List.append_nil]
      exact stream
    · refine alone _ (same.trans (pendingTokens_of_pending empty)) fun left member => ?_
      have wordless := sound.last_not_word reading left member
      exact ⟨by simp [wordless], fun _ => rfl, fun _ => by simp⟩
  cases sort : scanner.reading with
  | text =>
      refine alone ⟨scanner.pending.reverse, .operand, some .text⟩
        (by simp only [leftover, sort]) fun left member => ?_
      have follows := sound.last left member
      simp only [Follows, sort] at follows
      exact ⟨by simp [follows.1], by simp [follows.2], fun _ => by simp⟩
  | textQuote =>
      refine alone ⟨scanner.pending.reverse, .operand, some .text⟩
        (by simp only [leftover, sort]) fun left member => ?_
      have follows := sound.last left member
      simp only [Follows, sort] at follows
      exact ⟨by simp [follows.1], by simp [follows.2], fun _ => by simp⟩
  | errorCode =>
      refine alone ⟨scanner.pending.reverse, .operand, some .error⟩
        (by simp only [leftover, sort]) fun left member => ?_
      have wordless := sound.last_not_word (by simp [sort]) left member
      exact ⟨by simp [wordless], fun _ => rfl, fun _ => by simp⟩
  | comparison first =>
      exact alone ⟨[first], .infixOperator, none⟩ (by simp only [leftover, sort])
        fun left _ => abuts_of_not_value rfl fun _ => by simp
  | _ => exact word (by simp [sort]) (by simp only [leftover, sort])

private theorem isChain_stopTokens (scopes : List ScopeKind) :
    (scopes.map ScopeKind.stopToken).IsChain Abuts := by
  induction scopes with
  | nil => exact .nil
  | cons kind outer ih =>
      cases outer with
      | nil => exact .singleton _
      | cons next outer =>
          exact .cons_cons (abuts_of_not_value next.stopToken_beginsValue
            fun blank => (kind.stopToken_not_blank blank).elim) ih

/-- A finished scan closes every scope that it opened. -/
theorem Sound.finish_stream (sound : scanner.Sound convention called) {plain : Token → Prop}
    (stream : StreamOf convention plain called scanner.emitted.toList scanner.kinds)
    (held : ∀ token ∈ scanner.leftover, plain token) :
    StreamOf convention plain called scanner.finish.toList [] := by
  rw [finish_toList]
  refine (sound.leftover_stream stream held).extend
    (sound.stream.leads.stacked .empty).closed (isChain_stopTokens _) ?_
  intro left _ right member
  cases scopes : scanner.kinds with
  | nil => simp [scopes] at member
  | cons kind outer =>
      rw [scopes, List.map_cons, List.head?_cons] at member
      obtain rfl : _ = right := Option.some.inj member
      exact abuts_of_not_value kind.stopToken_beginsValue fun _ => kind.stopToken_not_blank

/-- What the scanner was reading when the text ended becomes raw tokens that bound no scope. -/
theorem Sound.leftover_raw (sound : scanner.Sound convention called) :
    ∀ token ∈ scanner.leftover, IsRaw (fun _ => True) (fun _ => True) token := by
  intro token member
  have word (inside : token ∈ scanner.pendingTokens .operand) :
      IsRaw (fun _ => True) (fun _ => True) token := by
    unfold pendingTokens at inside
    split at inside
    · cases inside
    · rw [List.mem_singleton] at inside
      exact inside ▸ .word trivial
  unfold leftover at member
  cases sort : scanner.reading with
  | text => simp only [sort, List.mem_singleton] at member; exact member ▸ .text _
  | textQuote => simp only [sort, List.mem_singleton] at member; exact member ▸ .text _
  | errorCode => simp only [sort, List.mem_singleton] at member; exact member ▸ .code trivial
  | comparison first =>
      simp only [sort, List.mem_singleton] at member
      obtain ⟨_, rfl | rfl⟩ := sound.comparison first sort
      · exact member ▸ .operator (by decide)
      · exact member ▸ .operator (by decide)
  | _ => simp only [sort] at member; exact word member

/-- The text did not end inside a path, a bracket or an error code. -/
def IsComplete (scanner : Scanner) : Prop :=
  scanner.reading ≠ .path ∧ scanner.reading ≠ .bracket ∧ scanner.reading ≠ .errorCode

instance : Decidable scanner.IsComplete :=
  inferInstanceAs (Decidable (_ ∧ _ ∧ _))

/-- If the text did not end inside a path, a bracket or an error code, the words and error codes
left over are complete. -/
theorem Sound.leftover_complete (sound : scanner.Sound convention called)
    (complete : scanner.IsComplete) :
    ∀ token ∈ scanner.leftover, IsRaw (IsWord convention) (· ∈ errorCodes) token := by
  intro token member
  have word (isOpen : scanner.reading.isOpen = true)
      (inside : token ∈ scanner.pendingTokens .operand) :
      IsRaw (IsWord convention) (· ∈ errorCodes) token := by
    unfold pendingTokens at inside
    split at inside
    · cases inside
    · rename_i present
      rw [List.mem_singleton] at inside
      refine inside ▸ .word ⟨by simpa using present, scanner.reading, isOpen, ?_⟩
      rw [List.reverse_reverse]
      exact sound.gathered (.inl isOpen)
  unfold leftover at member
  cases sort : scanner.reading with
  | text => simp only [sort, List.mem_singleton] at member; exact member ▸ .text _
  | textQuote => simp only [sort, List.mem_singleton] at member; exact member ▸ .text _
  | errorCode => exact (complete.2.2 sort).elim
  | path => exact (complete.1 sort).elim
  | bracket => exact (complete.2.1 sort).elim
  | comparison first =>
      simp only [sort, List.mem_singleton] at member
      obtain ⟨_, rfl | rfl⟩ := sound.comparison first sort
      · exact member ▸ .operator (by decide)
      · exact member ▸ .operator (by decide)
  | blanks =>
      simp only [sort, pendingTokens_of_empty (sound.blanks sort)] at member
      cases member
  | formula => simp only [sort] at member; exact word (by rw [sort]; rfl) member
  | pathQuote => simp only [sort] at member; exact word (by rw [sort]; rfl) member

end Scanner

end SheetFormula
