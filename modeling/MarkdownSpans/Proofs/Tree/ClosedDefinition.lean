import Mathlib.Data.List.TakeWhile
import MarkdownSpans.Proofs.Tree.Reread

/-!
# Definitions that make up their source again

The parts of a link definition make up the text they were read from exactly if the definition is
closed (`LinkDefinition.chars_read_iff`): otherwise a bracket, a colon or the closing delimiter of a
label, an address or a title would be added that the source does not have.
-/

namespace MarkdownSpans

/-! ### Closing characters -/

/-- A text is cut into pieces. -/
theorem splitUnescaped_append (target : Char) (cs : List Char) :
    (splitUnescaped target cs).1 ++ (splitUnescaped target cs).2 = cs := by
  induction cs using splitUnescaped.induct target with
  | case1 c rest before after hsplit ih => simp_all [splitUnescaped]
  | case2 rest => simp [splitUnescaped]
  | case3 c rest hpair hne before after hsplit ih => simp_all [splitUnescaped]
  | case4 => rfl

/-- What is cut off before the character that closes a text does not hold it. -/
theorem escaped_of_splitUnescaped {target : Char} {cs before rest : List Char}
    (h : splitUnescaped target cs = (before, target :: rest)) : Escaped target before := by
  induction cs using splitUnescaped.induct target generalizing before with
  | case1 c more piece after hsplit ih =>
    rw [splitUnescaped, hsplit, Prod.mk.injEq] at h
    obtain ⟨rfl, rfl⟩ := h
    simpa [Escaped] using ih hsplit
  | case2 more hpair =>
    simp only [splitUnescaped, ↓reduceIte, Prod.mk.injEq] at h
    obtain ⟨rfl, -⟩ := h
    trivial
  | case3 c more hpair hne piece after hsplit ih =>
    simp only [splitUnescaped, if_neg hne, hsplit, Prod.mk.injEq] at h
    obtain ⟨rfl, rfl⟩ := h
    have plain : c ≠ '\\' := by
      rintro rfl
      cases more with
      | nil => cases hsplit
      | cons d more => exact hpair d more rfl rfl
    simpa [Escaped, plain] using ⟨hne, ih hsplit⟩
  | case4 => cases h

/-! ### What follows the label -/

/-- An address that is not closed is read up to the end. -/
theorem addressParts_of_not_mem {inner : List Char} (h : '>' ∉ inner) :
    addressParts ('<' :: inner) = (inner, true, []) := by
  have inside : ∀ c ∈ inner, decide (c ≠ '>') = true := fun c hc =>
    decide_eq_true fun hclose => h (hclose ▸ hc)
  rw [addressParts, List.takeWhile_eq_self_iff.2 inside, List.dropWhile_eq_nil_iff.2 inside,
    List.drop_nil]

/-- What follows the address of a definition, as its parts have it. -/
def endChars (cs : List Char) : List Char :=
  (titleParts cs).beforeTitle ++
    (titleChars (titleParts cs).title (titleParts cs).delimiter ++ (titleParts cs).after)

/-- What follows the label of a definition, as its parts have it. -/
def tailChars (tail : List Char) : List Char :=
  tail.takeWhile isSpace ++
    (addressChars (addressParts (tail.dropWhile isSpace)).1
        (addressParts (tail.dropWhile isSpace)).2.1 ++
      endChars (addressParts (tail.dropWhile isSpace)).2.2)

/-- A title whose parts make up the end of a definition again is closed if it is opened. -/
theorem title_closed {cs : List Char} (h : endChars cs = cs) :
    ∀ opener inner closer, cs.dropWhile isSpace = opener :: inner →
      titleCloser? opener = some closer →
      ∃ title rest, inner = title ++ closer :: rest ∧ Escaped closer title := by
  intro opener inner closer hopened hcloser
  cases hsplit : splitUnescaped closer inner with
  | mk title after =>
    have pieces : title ++ after = inner := by
      simpa [hsplit] using splitUnescaped_append closer inner
    have parts : titleParts cs =
        ⟨cs.takeWhile isSpace, some title, opener, after.drop 1⟩ := by
      simp [titleParts, hopened, hcloser, hsplit]
    have again : cs.takeWhile isSpace ++ opener :: (title ++ closer :: after.drop 1) =
        cs.takeWhile isSpace ++ opener :: (title ++ after) := by
      rw [pieces, ← hopened, List.takeWhile_append_dropWhile]
      simpa [endChars, parts, titleChars, (titleCloser?_eq_some hcloser).2] using h
    obtain ⟨-, title_eq⟩ := List.cons.inj (List.append_cancel_left again)
    have closed : after = closer :: after.drop 1 := (List.append_cancel_left title_eq).symm
    rw [closed] at hsplit
    exact ⟨title, after.drop 1, by rw [title_eq, pieces], escaped_of_splitUnescaped hsplit⟩

/-- Parts that make up again what follows the label are closed. -/
theorem closedTail_of_tailChars {tail : List Char} (h : tailChars tail = tail) :
    ClosedTail tail := by
  have behind := List.append_cancel_left (h.trans List.takeWhile_append_dropWhile.symm)
  have address : ∀ inner, tail.dropWhile isSpace = '<' :: inner → '>' ∈ inner := by
    intro inner hinner
    apply Decidable.byContradiction
    intro hopen
    rw [hinner, addressParts_of_not_mem hopen] at behind
    -- The closing bracket would be added.
    have longer := congrArg List.length behind
    simp [addressChars] at longer
  refine ⟨address, title_closed ?_⟩
  exact List.append_cancel_left (behind.trans (addressParts_append address).symm)

theorem dropLead_append (lead rest : List Char) : dropLead lead (lead ++ rest) = rest := by
  simp [dropLead]

/-! ### Definitions -/

/-- A definition whose parts make up its text is closed, behind white space. -/
theorem LinkDefinition.closed_of_chars_read {text : List Char} {newline : Newline}
    {linesBefore : Option (List Line)}
    (h : (read (String.ofList text) newline linesBefore).chars = text) :
    ∃ before definition, text = before ++ definition ∧ (∀ c ∈ before, isSpace c = true) ∧
      ClosedDefinition definition := by
  have cut := List.takeWhile_append_dropWhile (p := isSpace) (l := text)
  have blank : ∀ c ∈ text.takeWhile isSpace, isSpace c = true :=
    List.all_eq_true.1 List.all_takeWhile
  refine ⟨text.takeWhile isSpace, text.dropWhile isSpace, cut.symm, blank, ?_⟩
  cases hsplit : splitUnescaped ']' (dropLead ['['] (text.dropWhile isSpace)) with
  | mk label behindLabel =>
    obtain ⟨tail, htail⟩ : ∃ tail, dropLead [']', ':'] behindLabel = tail := ⟨_, rfl⟩
    have parts : text.takeWhile isSpace ++ '[' :: (label ++ ']' :: ':' :: tailChars tail) =
        text.takeWhile isSpace ++ text.dropWhile isSpace := by
      rw [cut]
      simpa [read, chars, hsplit, htail, tailChars, endChars] using h
    have definition := (List.append_cancel_left parts).symm
    rw [definition] at hsplit ⊢
    have unlead : dropLead ['['] ('[' :: (label ++ ']' :: ':' :: tailChars tail)) =
        label ++ ']' :: ':' :: tailChars tail := dropLead_append ['['] _
    rw [unlead] at hsplit
    have pieces := splitUnescaped_append ']' (label ++ ']' :: ':' :: tailChars tail)
    rw [hsplit] at pieces
    obtain rfl : behindLabel = ']' :: ':' :: tailChars tail := List.append_cancel_left pieces
    have again : tailChars tail = tail := (dropLead_append [']', ':'] _).symm.trans htail
    rw [again] at hsplit ⊢
    exact ⟨label, tail, rfl, escaped_of_splitUnescaped hsplit, closedTail_of_tailChars again⟩

/-- The parts of a closed definition behind white space make up its text. -/
theorem LinkDefinition.chars_read_append {before definition : List Char}
    (hbefore : ∀ c ∈ before, isSpace c = true) (h : ClosedDefinition definition)
    (newline : Newline) (linesBefore : Option (List Line)) :
    (read (String.ofList (before ++ definition)) newline linesBefore).chars =
      before ++ definition := by
  have whole := chars_read h newline linesBefore
  obtain ⟨label, tail, rfl, -, -⟩ := h
  have opener : isSpace '[' = false := by decide
  simp only [read, chars, String.toList_ofList, List.takeWhile_append_of_pos hbefore,
    List.dropWhile_append_of_pos hbefore] at whole ⊢
  simpa [opener] using whole

/-- **The parts of a definition make up its text exactly if it is closed**, behind white space. -/
theorem LinkDefinition.chars_read_iff (text : List Char) (newline : Newline)
    (linesBefore : Option (List Line)) :
    (read (String.ofList text) newline linesBefore).chars = text ↔
      ∃ before definition, text = before ++ definition ∧ (∀ c ∈ before, isSpace c = true) ∧
        ClosedDefinition definition := by
  constructor
  · exact closed_of_chars_read
  · rintro ⟨before, definition, rfl, hbefore, h⟩
    exact chars_read_append hbefore h newline linesBefore

end MarkdownSpans
