import Mathlib.Data.List.TakeWhile
import MarkdownSpans.Proofs.Render.Spelled

/-!
# Link definitions printed and read again

A link definition whose parts are such as the syntax allows is rendered as these parts one after
another. Reading that text gives the definition back exactly if its address is not cut: an address in
angle brackets is read up to the first `>`, whether or not a backslash stands before it, and another
one up to the first white space, be it of ASCII or not (`LinkDefinition.read_rendered_iff`).
-/

namespace MarkdownSpans

open Line (joined)

/-! ### Allowed parts -/

/-- An address that may stand in a definition. In angle brackets it lies in one line and has its
angle brackets escaped; without them it is not empty and holds no blank of ASCII. -/
def AddressAllowed (url : List Char) (inAngleBrackets : Bool) : Prop :=
  if inAngleBrackets then Unbroken url ∧ Escaped '<' url ∧ Escaped '>' url
  else url ≠ [] ∧ (∀ c ∈ url, isAsciiSpace c = false) ∧ url.head? ≠ some '<'

/-- An address that is not cut when it is read: no `>` stands in angle brackets, no white space in
any other address. -/
def Uncut (url : List Char) (inAngleBrackets : Bool) : Prop :=
  ∀ c ∈ url, if inAngleBrackets then c ≠ '>' else isSpace c = false

instance (url : List Char) (inAngleBrackets : Bool) : Decidable (Uncut url inAngleBrackets) :=
  List.decidableBAll (fun c => if inAngleBrackets then c ≠ '>' else isSpace c = false) url

namespace LinkDefinition

/-- A title that may stand in a definition: between delimiters, behind blanks of ASCII and with its
closing delimiter escaped. Behind a definition without a title only white space may stand. -/
def TitleAllowed (d : LinkDefinition) : Prop :=
  match d.title with
  | none =>
    d.beforeTitle = "" ∧ d.titleDelimiter = '"' ∧ ∀ c ∈ d.trivia.after.toList, isSpace c = true
  | some title =>
    d.beforeTitle ≠ "" ∧ (∀ c ∈ d.beforeTitle.toList, isAsciiSpace c = true) ∧
      titleCloser? d.titleDelimiter = some (titleCloser d.titleDelimiter) ∧
      Escaped (titleCloser d.titleDelimiter) title.toList

/-- The parts of the definition are such as the syntax of definitions allows. -/
structure Allowed (d : LinkDefinition) : Prop where
  label : Escaped ']' d.label.toList
  before : ∀ c ∈ d.trivia.before.toList, isAsciiSpace c = true
  beforeUrl : ∀ c ∈ d.beforeUrl.toList, isAsciiSpace c = true
  address : AddressAllowed d.url.toList d.urlInAngleBrackets
  title : d.TitleAllowed
  linesAfter : d.trivia.linesAfter = some []

end LinkDefinition

/-! ### Reading the parts -/

/-- Elements of a class are taken up to one that is not in it. -/
theorem span_append {α : Type} {p : α → Bool} {as : List α} (bs : List α)
    (has : ∀ a ∈ as, p a = true) (hbs : ∀ b ∈ bs.head?, p b = false) :
    (as ++ bs).takeWhile p = as ∧ (as ++ bs).dropWhile p = bs := by
  rw [List.takeWhile_append_of_pos has, List.dropWhile_append_of_pos has]
  cases bs with
  | nil => simp
  | cons b rest =>
    have stop : p b = false := hbs b rfl
    simp [stop]

/-- Blanks of ASCII are taken up to what is no white space. -/
theorem span_isSpace {as : List Char} (bs : List Char) (has : ∀ a ∈ as, isAsciiSpace a = true)
    (hbs : ∀ b ∈ bs.head?, isSpace b = false) :
    (as ++ bs).takeWhile isSpace = as ∧ (as ++ bs).dropWhile isSpace = bs :=
  span_append bs (fun a ha => isSpace_of_isAsciiSpace (has a ha)) hbs

/-- Whatever is read as an address is uncut. -/
theorem uncut_addressParts (cs : List Char) :
    Uncut (addressParts cs).1 (addressParts cs).2.1 := by
  unfold addressParts
  split
  · intro c hc
    simpa using List.all_eq_true.1 List.all_takeWhile c hc
  · intro c hc
    simpa using List.all_eq_true.1 List.all_takeWhile c hc

section Address

variable {url : List Char} {inAngleBrackets : Bool}

/-- An uncut address begins with no white space. -/
theorem isSpace_of_head?_addressChars (h : AddressAllowed url inAngleBrackets)
    (huncut : Uncut url inAngleBrackets) (rest : List Char) :
    ∀ c ∈ (addressChars url inAngleBrackets ++ rest).head?, isSpace c = false := by
  intro c hc
  cases inAngleBrackets with
  | true =>
    cases hc
    decide
  | false =>
    obtain ⟨d, more, rfl⟩ := List.exists_cons_of_ne_nil h.1
    obtain rfl : d = c := Option.some.inj hc
    simpa using huncut d (.head _)

/-- An uncut address is read up to its end. -/
theorem addressParts_of_uncut (h : AddressAllowed url inAngleBrackets)
    (huncut : Uncut url inAngleBrackets) {rest : List Char}
    (hrest : inAngleBrackets = false → ∀ c ∈ rest.head?, isSpace c = true) :
    addressParts (addressChars url inAngleBrackets ++ rest) = (url, inAngleBrackets, rest) := by
  cases inAngleBrackets with
  | true =>
    have inside : ∀ c ∈ url, decide (c ≠ '>') = true := fun c hc =>
      decide_eq_true (huncut c hc)
    obtain ⟨htake, hdrop⟩ := span_append ('>' :: rest) inside (by simp)
    have chars : addressChars url true ++ rest = '<' :: (url ++ '>' :: rest) := by
      simp [addressChars]
    rw [chars, addressParts, htake, hdrop, List.drop_one, List.tail_cons]
  | false =>
    have inside : ∀ c ∈ url, (!isSpace c) = true := fun c hc => by simpa using huncut c hc
    obtain ⟨htake, hdrop⟩ := span_append rest inside fun c hc => by simpa using hrest rfl c hc
    show addressParts (url ++ rest) = _
    rw [addressParts, htake, hdrop]
    -- The address does not begin with an angle bracket.
    intro inner heq
    obtain ⟨hne, -, hhead⟩ := h
    obtain ⟨d, more, rfl⟩ := List.exists_cons_of_ne_nil hne
    exact hhead (congrArg List.head? heq)

end Address

namespace LinkDefinition

variable {d : LinkDefinition}

/-- The title of a definition as it stands in its text, with the blanks before it and what follows
it. -/
def behindUrl (d : LinkDefinition) : List Char :=
  d.beforeTitle.toList ++
    (titleChars (d.title.map String.toList) d.titleDelimiter ++ d.trivia.after.toList)

/-- Only white space may follow an address. -/
theorem TitleAllowed.isSpace_of_head? (h : d.TitleAllowed) :
    ∀ c ∈ d.behindUrl.head?, isSpace c = true := by
  intro c hc
  unfold TitleAllowed at h
  unfold behindUrl at hc
  cases htitle : d.title with
  | none =>
    rw [htitle] at h hc
    obtain ⟨hbefore, -, hafter⟩ := h
    simp only [hbefore, titleChars, Option.map_none, String.toList_empty, List.nil_append] at hc
    exact hafter c (List.mem_of_head? hc)
  | some title =>
    rw [htitle] at h
    obtain ⟨hne, hbefore, -, -⟩ := h
    have chars : d.beforeTitle.toList ≠ [] := fun h => hne (String.toList_inj.1 h)
    obtain ⟨e, more, heq⟩ := List.exists_cons_of_ne_nil chars
    rw [heq] at hbefore hc
    obtain rfl : e = c := Option.some.inj hc
    exact isSpace_of_isAsciiSpace (hbefore e (.head _))

theorem titleCloser?_isSpace {opener closer : Char} (h : titleCloser? opener = some closer) :
    isSpace opener = false := by
  unfold titleCloser? at h
  split at h
  case h_4 => cases h
  all_goals decide

theorem titleParts_behindUrl (h : d.TitleAllowed) :
    titleParts d.behindUrl =
      ⟨d.beforeTitle.toList, d.title.map String.toList, d.titleDelimiter,
        d.trivia.after.toList⟩ := by
  unfold TitleAllowed at h
  unfold behindUrl
  cases htitle : d.title with
  | none =>
    rw [htitle] at h
    obtain ⟨hbefore, hdelimiter, hafter⟩ := h
    have blank : d.trivia.after.toList.dropWhile isSpace = [] := List.dropWhile_eq_nil_iff.2 hafter
    simp [hbefore, hdelimiter, titleChars, titleParts, blank]
  | some title =>
    rw [htitle] at h
    obtain ⟨-, hbefore, hcloser, hescaped⟩ := h
    set closer := titleCloser d.titleDelimiter
    have chars : titleChars (some title.toList) d.titleDelimiter ++ d.trivia.after.toList =
        d.titleDelimiter :: (title.toList ++ closer :: d.trivia.after.toList) := by
      simp [titleChars, closer]
    obtain ⟨htake, hdrop⟩ := span_isSpace
      (d.titleDelimiter :: (title.toList ++ closer :: d.trivia.after.toList)) hbefore (by
        rintro _ ⟨⟩
        exact titleCloser?_isSpace hcloser)
    have split := splitUnescaped_of_escaped hescaped (titleCloser?_eq_some hcloser).1
      d.trivia.after.toList
    simp [chars, titleParts, htake, hdrop, hcloser, split]

/-- The address of a definition that was read is uncut. -/
theorem uncut_of_read_eq {raw : String} {newline : Newline} {linesBefore : Option (List Line)}
    (h : read raw newline linesBefore = d) : Uncut d.url.toList d.urlInAngleBrackets := by
  subst h
  unfold read
  rw [String.toList_ofList]
  exact uncut_addressParts _

/-- **The text of a definition with allowed parts is read as the definition exactly if its address is
not cut.** -/
theorem read_chars_iff (h : d.Allowed) :
    read (String.ofList d.chars) d.newline d.trivia.linesBefore = d ↔
      Uncut d.url.toList d.urlInAngleBrackets := by
  constructor
  · exact uncut_of_read_eq
  · intro huncut
    set tail := addressChars d.url.toList d.urlInAngleBrackets ++ d.behindUrl with tail_eq
    obtain ⟨hbefore, hbefore'⟩ := span_isSpace
      ('[' :: (d.label.toList ++ ']' :: ':' :: (d.beforeUrl.toList ++ tail))) h.before (by
        rintro _ ⟨⟩
        decide)
    have label := splitUnescaped_of_escaped h.label (by decide) (':' :: (d.beforeUrl.toList ++ tail))
    obtain ⟨hurl, hurl'⟩ := span_isSpace tail h.beforeUrl
      (isSpace_of_head?_addressChars h.address huncut d.behindUrl)
    have address := addressParts_of_uncut h.address huncut fun _ => h.title.isSpace_of_head?
    rw [← tail_eq] at address
    have title := titleParts_behindUrl h.title
    have chars : d.chars = d.trivia.before.toList ++ '[' :: (d.label.toList ++ ']' :: ':' ::
        (d.beforeUrl.toList ++ tail)) := rfl
    have after : some [] = d.trivia.linesAfter := h.linesAfter.symm
    rw [chars]
    simp [read, hbefore, hbefore', dropLead, label, hurl, hurl', address, title, after]

end LinkDefinition

/-! ### Rendering -/

/-- A document that is only written is rendered as its text. -/
theorem Pass.result_of_types {pass : Pass} {document : Document} {n : Nat} {text : List Char}
    (h : Program.Types pass n (.render (.document document)) text)
    (hdepth : n ≤ pass.options.maxDepth) :
    (pass.run document).result = .ok ⟨String.ofList text, [], pass.options.unit⟩ := by
  obtain ⟨buffer, hrun, hgains⟩ :=
    h pass.options.maxDepth (.start pass.options) hdepth (by simpa [Context.start] using hdepth) rfl
  have written : buffer.text = String.ofList text := hgains.text.trans String.empty_append
  have unit : buffer.unit = pass.options.unit := hgains.unit
  show (pass.render pass.options.maxDepth _ _).result = _
  rw [← written, ← unit]
  exact congrArg Outcome.result hrun

namespace LinkDefinition

/-- A definition by itself is rendered as its lines before, its text and its terminator. -/
theorem result_run {d : LinkDefinition} (h : d.trivia.linesAfter = some []) {pass : Pass}
    (hrules : pass.rules = .standard) (hdepth : 2 ≤ pass.options.maxDepth) :
    (pass.run ⟨[.linkDefinition d]⟩).result =
      .ok ⟨String.ofList (joined (d.trivia.linesBefore.getD [])) ++ String.ofList d.chars ++
        d.newline.text, [], pass.options.unit⟩ := by
  have typed : Program.Types pass 1 (.render (.block (.linkDefinition d))) d.spelled :=
    .render hrules rfl (.linkDefinition h)
  have document : Program.Types pass 2 (.render (.document ⟨[.linkDefinition d]⟩))
      (d.spelled ++ []) := .render hrules rfl (.seq typed.withLast .done)
  have text : String.ofList (d.spelled ++ []) =
      String.ofList (joined (d.trivia.linesBefore.getD [])) ++ String.ofList d.chars ++
        d.newline.text := by
    apply String.toList_inj.1
    simp [spelled, Newline.toList_text]
  rw [Pass.result_of_types document hdepth, text]

/-- **A definition with allowed parts is rendered as a text that is read as the definition exactly if
its address is not cut.** The lines before the definition and its terminator are left aside. -/
theorem read_rendered_iff {d : LinkDefinition} (h : d.Allowed) :
    ∃ text : String,
      (∀ pass : Pass, pass.rules = .standard → 2 ≤ pass.options.maxDepth →
        (pass.run ⟨[.linkDefinition d]⟩).result =
          .ok ⟨String.ofList (joined (d.trivia.linesBefore.getD [])) ++ text ++ d.newline.text, [],
            pass.options.unit⟩) ∧
      (read text d.newline d.trivia.linesBefore = d ↔ Uncut d.url.toList d.urlInAngleBrackets) :=
  ⟨String.ofList d.chars, fun _ hrules hdepth => result_run h.linesAfter hrules hdepth,
    read_chars_iff h⟩

/-- A label, an address and a title with escapes, between blank lines and blanks of all kinds. -/
theorem read_rendered_iff_escaped :
    let d : LinkDefinition :=
      { label := "a\\]b", beforeUrl := "\n ", url := "c \\< d", urlInAngleBrackets := true,
        beforeTitle := " \t", title := some "it\\'s", titleDelimiter := '\'', newline := .crlf,
        trivia :=
          { linesBefore := some [⟨" ", .lf⟩], linesAfter := some [], before := "  ", after := " x" } }
    d.Allowed ∧
      ∃ text : String,
        (({ rules := .standard } : Pass).run ⟨[.linkDefinition d]⟩).result =
          .ok ⟨" \n" ++ text ++ "\r\n", [], .utf16⟩ ∧
        read text .crlf (some [⟨" ", .lf⟩]) = d := by
  intro d
  have allowed : d.Allowed :=
    { label := by simp [d, Escaped]
      before := List.all_eq_true.1 (by decide)
      beforeUrl := List.all_eq_true.1 (by decide)
      address := ⟨by decide, by simp [d, Escaped], by simp [d, Escaped]⟩
      title := ⟨by decide, List.all_eq_true.1 (by decide), by decide,
        by simp [d, Escaped, titleCloser]⟩
      linesAfter := rfl }
  obtain ⟨text, hrendered, hread⟩ := read_rendered_iff allowed
  exact ⟨allowed, text, hrendered { rules := .standard } rfl (by decide), hread.2 (by decide)⟩

/-- An angle bracket that is escaped ends the address all the same: the rest of the address and the
title are read as what follows the definition. -/
theorem read_ne_of_escaped_bracket :
    let d : LinkDefinition :=
      { label := "a", beforeUrl := " ", url := "b\\>c", urlInAngleBrackets := true,
        beforeTitle := " ", title := some "t", newline := .lf, trivia := .tracked }
    d.Allowed ∧
      (({ rules := .standard } : Pass).run ⟨[.linkDefinition d]⟩).result =
        .ok ⟨"[a]: <b\\>c> \"t\"\n", [], .utf16⟩ ∧
      read "[a]: <b\\>c> \"t\"" .lf none ≠ d := by
  intro d
  have rendered : (({ rules := .standard } : Pass).run ⟨[.linkDefinition d]⟩).result = _ :=
    result_run rfl rfl (by decide)
  have text : String.ofList (joined (d.trivia.linesBefore.getD [])) ++ String.ofList d.chars ++
      d.newline.text = "[a]: <b\\>c> \"t\"\n" := by decide
  rw [text] at rendered
  refine ⟨?_, rendered, fun h => ?_⟩
  · exact
      { label := by simp [d, Escaped]
        before := List.all_eq_true.1 (by decide)
        beforeUrl := List.all_eq_true.1 (by decide)
        address := ⟨by decide, by simp [d, Escaped], by simp [d, Escaped]⟩
        title := ⟨by decide, List.all_eq_true.1 (by decide), by decide,
          by simp [d, Escaped, titleCloser]⟩
        linesAfter := rfl }
  · exact absurd (uncut_of_read_eq h) (by decide)

end LinkDefinition

end MarkdownSpans
