import MarkdownSpans.Render.Rules
import MarkdownSpans.Tree.Definition

/-!
# Link definitions read back

A link definition is cut into parts when it is read. If its label is closed, and its address and its
title are if they are opened, the parts make up its text again: no character is lost, added or moved,
wherever the parts are cut.
-/

namespace MarkdownSpans

/-! ### Escapes -/

/-- The character does not occur without a backslash that escapes it, and no backslash is left
dangling at the end. -/
def Escaped (target : Char) : List Char → Prop
  | '\\' :: _ :: rest => Escaped target rest
  | ['\\'] => False
  | c :: rest => c ≠ target ∧ Escaped target rest
  | [] => True

theorem splitUnescaped_cons (target : Char) {c : Char} (h : c ≠ '\\') (rest : List Char) :
    splitUnescaped target (c :: rest) =
      if c = target then ([], c :: rest)
      else (c :: (splitUnescaped target rest).1, (splitUnescaped target rest).2) := by
  rw [splitUnescaped.eq_def]
  split <;> simp_all

/-- A text is cut before the character that closes it. -/
theorem splitUnescaped_of_escaped {target : Char} {cs : List Char} (h : Escaped target cs)
    (htarget : target ≠ '\\') (rest : List Char) :
    splitUnescaped target (cs ++ target :: rest) = (cs, target :: rest) := by
  induction cs using Escaped.induct with
  | case1 c more ih =>
    rw [List.cons_append, List.cons_append, splitUnescaped, ih (by simpa [Escaped] using h)]
  | case2 => simp [Escaped] at h
  | case3 c more hpair hlast ih =>
    have plain : c ≠ '\\' := by
      rintro rfl
      cases more with
      | nil => exact hlast rfl rfl
      | cons d more => exact hpair d more rfl rfl
    obtain ⟨hne, hmore⟩ : c ≠ target ∧ Escaped target more := by
      simpa [Escaped, plain] using h
    rw [List.cons_append, splitUnescaped_cons target plain, if_neg hne, ih hmore]
  | case4 => rw [List.nil_append, splitUnescaped_cons target htarget, if_pos rfl]

/-! ### Addresses and titles -/

/-- The address of a definition as it stands in the source. -/
def addressChars (url : List Char) (inAngleBrackets : Bool) : List Char :=
  if inAngleBrackets then '<' :: (url ++ ['>']) else url

theorem addressParts_append {cs : List Char} (h : ∀ inner, cs = '<' :: inner → '>' ∈ inner) :
    addressChars (addressParts cs).1 (addressParts cs).2.1 ++ (addressParts cs).2.2 = cs := by
  unfold addressParts
  split
  case h_1 inner =>
    obtain ⟨url, rest, rfl, hurl⟩ := List.eq_append_cons_of_mem (h inner rfl)
    have inside : ∀ c ∈ url, decide (c ≠ '>') = true := fun c hc =>
      decide_eq_true fun hclose => hurl (hclose ▸ hc)
    simp only [List.takeWhile_append_of_pos inside, List.dropWhile_append_of_pos inside]
    simp [addressChars]
  case h_2 => exact List.takeWhile_append_dropWhile

theorem titleCloser?_eq_some {opener closer : Char} (h : titleCloser? opener = some closer) :
    closer ≠ '\\' ∧ titleCloser opener = closer := by
  unfold titleCloser? at h
  split at h
  case h_4 => cases h
  all_goals
    cases h
    decide

/-- The title of a definition as it stands in the source. -/
def titleChars (title : Option (List Char)) (delimiter : Char) : List Char :=
  match title with
  | some title => delimiter :: (title ++ [titleCloser delimiter])
  | none => []

theorem titleParts_append {cs : List Char}
    (h : ∀ opener inner closer, cs.dropWhile isSpace = opener :: inner →
      titleCloser? opener = some closer →
      ∃ title rest, inner = title ++ closer :: rest ∧ Escaped closer title) :
    (titleParts cs).beforeTitle ++
      (titleChars (titleParts cs).title (titleParts cs).delimiter ++ (titleParts cs).after) = cs := by
  have cut := List.takeWhile_append_dropWhile (p := isSpace) (l := cs)
  unfold titleParts
  cases hopened : cs.dropWhile isSpace with
  | nil => rfl
  | cons opener inner =>
    cases hcloser : titleCloser? opener with
    | none => simp [hcloser, titleChars]
    | some closer =>
      obtain ⟨title, rest, rfl, hescaped⟩ := h opener inner closer hopened hcloser
      obtain ⟨hne, hcloses⟩ := titleCloser?_eq_some hcloser
      rw [hopened] at cut
      simp only [hcloser, splitUnescaped_of_escaped hescaped hne]
      simpa [titleChars, hcloses] using cut

/-! ### Definitions -/

/-- What follows the label of a definition is closed: an address in angle brackets is, and a title
that is opened behind the address. -/
structure ClosedTail (tail : List Char) : Prop where
  address : ∀ inner, tail.dropWhile isSpace = '<' :: inner → '>' ∈ inner
  title : ∀ opener inner closer,
    (addressParts (tail.dropWhile isSpace)).2.2.dropWhile isSpace = opener :: inner →
    titleCloser? opener = some closer →
    ∃ title rest, inner = title ++ closer :: rest ∧ Escaped closer title

/-- The text is a link definition whose label is closed, and so are its address and its title if they
are opened. -/
def ClosedDefinition (text : List Char) : Prop :=
  ∃ label tail, text = '[' :: (label ++ ']' :: ':' :: tail) ∧ Escaped ']' label ∧ ClosedTail tail

/-- A link definition as it stands in the source, without its terminator. -/
def LinkDefinition.chars (d : LinkDefinition) : List Char :=
  d.trivia.before.toList ++ '[' :: (d.label.toList ++ ']' :: ':' :: (d.beforeUrl.toList ++
    (addressChars d.url.toList d.urlInAngleBrackets ++ (d.beforeTitle.toList ++
      (titleChars (d.title.map String.toList) d.titleDelimiter ++ d.trivia.after.toList)))))

/-- **The parts of a closed definition make up its text.** -/
theorem LinkDefinition.chars_read {text : List Char} (h : ClosedDefinition text)
    (newline : Newline) (linesBefore : Option (List Line)) :
    (read (String.ofList text) newline linesBefore).chars = text := by
  obtain ⟨label, tail, rfl, hlabel, htail⟩ := h
  have space : isSpace '[' = false := by decide
  have split := splitUnescaped_of_escaped hlabel (by decide) (':' :: tail)
  have title := titleParts_append htail.title
  have address := addressParts_append htail.address
  have spacing := List.takeWhile_append_dropWhile (p := isSpace) (l := tail)
  rw [← address, ← title] at spacing
  simpa [read, chars, space, dropLead, split] using spacing

end MarkdownSpans
