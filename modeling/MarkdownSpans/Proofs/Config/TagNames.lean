import Mathlib
import MarkdownSpans.Config.Basic
import MarkdownSpans.Proofs.Render.Intercepted
import MarkdownSpans.Proofs.Text.EmojiSplit

/-!
# Names of tags in configurations

A configuration is checked for texts that cannot be names of tags, and a filter looks for the name
at the start of each tag. The two are defined apart, one for a whole text and one for the beginning
of a text, and they agree: the check admits exactly the names by which some tag can be stripped
(`Config.strips_iff_admitted`).
-/

namespace MarkdownSpans

/-! ### The case of ASCII letters -/

/-- The second text is the first one with some of its ASCII letters in the other case. -/
def SameLetters (a b : String) : Prop :=
  List.Forall₂ (fun c d => d = c ∨ d = c.toLower ∨ d = c.toUpper) a.toList b.toList

theorem toLower_eq_toLower_iff {c d : Char} :
    c.toLower = d.toLower ↔ d = c ∨ d = c.toLower ∨ d = c.toUpper := by
  constructor
  · intro h
    by_cases upper : d.isUpper
    · have capital : d.toUpper = d :=
        Char.toUpper_eq_of_not_isLower (Char.not_isLower_of_isUpper upper)
      right; right
      rw [← Char.toUpper_toLower_eq_toUpper, h, Char.toUpper_toLower_eq_toUpper, capital]
    · right; left
      rw [h, Char.toLower_eq_of_not_isUpper upper]
  · rintro (rfl | rfl | rfl) <;> simp

theorem sameLetters_iff {a b : String} : SameLetters a b ↔ lowerAscii a = lowerAscii b := by
  rw [SameLetters, lowerAscii, lowerAscii, String.ofList_inj, ← List.forall₂_eq_eq_eq,
    List.forall₂_map_left_iff, List.forall₂_map_right_iff]
  simp only [toLower_eq_toLower_iff]

theorem SameLetters.refl (a : String) : SameLetters a a := sameLetters_iff.2 rfl

/-- The case of a letter does not matter in a name. -/
theorem isTagChar_toLower (c : Char) : isTagChar c.toLower = isTagChar c := by
  by_cases upper : c.isUpper
  · simp [isTagChar, Char.isAlphanum, Char.isAlpha, upper]
  · rw [Char.toLower_eq_of_not_isUpper upper]

theorem isTagName_iff {name : String} : isTagName name = true ↔
    (∃ c ∈ name.toList.head?, c.isAlpha = true) ∧ ∀ c ∈ name.toList, isTagChar c = true := by
  simp [isTagName, Option.any_eq_true]

theorem isTagName_lowerAscii (name : String) : isTagName (lowerAscii name) = isTagName name := by
  cases h : name.toList with
  | nil => simp [isTagName, lowerAscii, h]
  | cons c rest => simp [isTagName, lowerAscii, h, isTagChar_toLower, Function.comp_def]

theorem SameLetters.isTagName {a b : String} (h : SameLetters a b) :
    isTagName a = isTagName b := by
  rw [← isTagName_lowerAscii a, sameLetters_iff.1 h, isTagName_lowerAscii]

/-! ### The name of a tag -/

/-- A tag is `<` or `</`, its name, and something that does not go on with the name. A name is made
of letters, digits and hyphens and begins with a letter. -/
structure BearsName (tag name : String) : Prop where
  cut : ∃ rest : String, (tag = "<" ++ name ++ rest ∨ tag = "</" ++ name ++ rest) ∧
    ∀ c ∈ rest.toList.head?, isTagChar c = false
  letter : ∃ c ∈ name.toList.head?, c.isAlpha = true
  chars : ∀ c ∈ name.toList, isTagChar c = true

theorem leadingName?_eq_some_iff {inner : List Char} {name : String} :
    leadingName? inner = some name ↔
      (∃ rest, inner = name.toList ++ rest ∧ ∀ c ∈ rest.head?, isTagChar c = false) ∧
        isTagName name = true := by
  rw [isTagName_iff]
  constructor
  · intro h
    simp only [leadingName?] at h
    split at h
    case isTrue letter =>
      obtain rfl := Option.some.inj h
      rw [String.toList_ofList]
      refine ⟨⟨inner.dropWhile isTagChar, List.takeWhile_append_dropWhile.symm, ?_⟩, ?_, ?_⟩
      · intro c hc
        have stopped := List.head?_dropWhile_not isTagChar inner
        rw [Option.mem_def.1 hc] at stopped
        exact stopped
      · simpa [Option.any_eq_true] using letter
      · exact fun c hc => List.all_eq_true.1 List.all_takeWhile c hc
    case isFalse => cases h
  · rintro ⟨⟨rest, rfl, stopped⟩, ⟨c, hc, letter⟩, chars⟩
    have taken : (name.toList ++ rest).takeWhile isTagChar = name.toList := by
      rw [List.takeWhile_append_of_pos chars]
      cases rest with
      | nil => simp
      | cons d more => simp [stopped d rfl]
    simp only [leadingName?, taken, String.ofList_toList]
    exact if_pos (by simpa [Option.mem_def.1 hc] using letter)

theorem tagName?_eq_some_iff {tag name : String} :
    tagName? tag = some name ↔ BearsName tag name := by
  constructor
  · intro h
    unfold tagName? at h
    split at h
    case h_1 inner htag =>
      obtain ⟨⟨rest, rfl, stopped⟩, hname⟩ := leadingName?_eq_some_iff.1 h
      obtain ⟨letter, chars⟩ := isTagName_iff.1 hname
      refine ⟨⟨String.ofList rest, .inr ?_, by simpa using stopped⟩, letter, chars⟩
      rw [← String.toList_inj, htag]
      simp
    case h_2 inner _ htag =>
      obtain ⟨⟨rest, rfl, stopped⟩, hname⟩ := leadingName?_eq_some_iff.1 h
      obtain ⟨letter, chars⟩ := isTagName_iff.1 hname
      refine ⟨⟨String.ofList rest, .inl ?_, by simpa using stopped⟩, letter, chars⟩
      rw [← String.toList_inj, htag]
      simp
    case h_3 => cases h
  · rintro ⟨⟨rest, hcut, stopped⟩, letter, chars⟩
    have found : leadingName? (name.toList ++ rest.toList) = some name :=
      leadingName?_eq_some_iff.2 ⟨⟨rest.toList, rfl, stopped⟩, isTagName_iff.2 ⟨letter, chars⟩⟩
    obtain ⟨c, hc, halpha⟩ := letter
    obtain ⟨more, hname⟩ := List.head?_eq_some_iff.1 hc
    rw [hname, List.cons_append] at found
    rcases hcut with rfl | rfl
    · -- A name does not begin with the sign of a closing tag.
      have first : c ≠ '/' := by
        rintro rfl
        exact absurd halpha (by decide)
      simp [tagName?, hname, first, found]
    · simp [tagName?, hname, found]

/-- A tag bears one of these names, whatever the case of its letters. -/
def BearsOneOf (names : List String) (tag : String) : Prop :=
  ∃ name, BearsName tag name ∧ ∃ n ∈ names, SameLetters n name

/-! ### Filters and checks -/

namespace MarkupFilter

theorem strips_stripTags_iff {names : List String} {tag : String} :
    (stripTags names).strips tag = true ↔ BearsOneOf names tag := by
  simp only [strips, BearsOneOf, ← tagName?_eq_some_iff, sameLetters_iff]
  cases h : tagName? tag with
  | none => simp
  | some name => simp

/-- A filter answers each tag by itself. -/
theorem forall₂_strippedCounts (filter : MarkupFilter) (consumed : Nat) (tags : List String) :
    List.Forall₂ (fun tag answer => answer.1 = filter.strips tag) tags
      (filter.strippedCounts consumed tags) := by
  induction tags generalizing consumed with
  | nil => exact .nil
  | cons tag rest ih => exact .cons rfl (ih _)

/-- What a filter counts are its answers. -/
theorem countP_strippedCounts (filter : MarkupFilter) (consumed : Nat) (tags : List String) :
    (filter.strippedCounts consumed tags).countP (·.1) = tags.countP filter.strips := by
  induction tags generalizing consumed with
  | nil => rfl
  | cons tag rest ih => simp only [strippedCounts, List.countP_cons, ih]

end MarkupFilter

namespace Config

/-- A configuration with this name alone among the tags to strip passes the check. -/
def Admits (name : String) : Prop := ({ stripTags := [name] } : Config).fault? = none

theorem admits_iff {name : String} : Admits name ↔ isTagName name = true := by
  have render : ({ stripTags := [name] } : Config).renderFault? = none := rfl
  have parser : ({ stripTags := [name] } : Config).parserFault? = none := rfl
  simp [Admits, fault?, render, parser, markupFault?]

/-- Names are checked one by one. -/
theorem markupFault?_eq_none_iff (c : Config) :
    c.markupFault? = none ↔ ∀ name ∈ c.stripTags, Admits name := by
  simp [markupFault?, admits_iff]

theorem strips_filter_iff (c : Config) (tag : String) :
    c.filter.strips tag = true ↔ c.stripAll = true ∨ BearsOneOf c.stripTags tag := by
  unfold filter
  by_cases every : c.stripAll = true
  · simp [MarkupFilter.strips, every]
  · by_cases empty : c.stripTags = []
    · simp [MarkupFilter.strips, BearsOneOf, every, empty]
    · simp [MarkupFilter.strips_stripTags_iff, every, empty]

variable {name other : String}

/-- A name is admitted if some tag bears it, in whatever case. -/
theorem admits_of_bearsOneOf {tag : String} (h : BearsOneOf [name] tag) : Admits name := by
  obtain ⟨word, bears, n, hn, same⟩ := h
  obtain rfl := List.mem_singleton.1 hn
  rw [admits_iff, same.isTagName]
  exact isTagName_iff.2 ⟨bears.letter, bears.chars⟩

/-- A tag that is made from an admitted name bears it. -/
theorem bearsOneOf_of_admits (h : Admits name) (same : SameLetters name other) {rest : String}
    (stopped : ∀ c ∈ rest.toList.head?, isTagChar c = false) :
    BearsOneOf [name] ("<" ++ other ++ rest) ∧ BearsOneOf [name] ("</" ++ other ++ rest) := by
  have valid : isTagName other = true := by rwa [← same.isTagName, ← admits_iff]
  obtain ⟨letter, chars⟩ := isTagName_iff.1 valid
  exact ⟨⟨other, ⟨⟨rest, .inl rfl, stopped⟩, letter, chars⟩, name, .head _, same⟩,
    ⟨other, ⟨⟨rest, .inr rfl, stopped⟩, letter, chars⟩, name, .head _, same⟩⟩

theorem isTagChar_of_isSpace {c : Char} (h : isSpace c = true) : isTagChar c = false := by
  rw [isTagChar, Bool.or_eq_false_iff, beq_eq_false_iff_ne]
  constructor
  · by_contra hc
    rw [isSpace_of_isAlphanum (by simpa using hc)] at h
    cases h
  · rintro rfl
    cases h

/-- **The check of a configuration admits exactly the names by which tags can be stripped.** A name
is admitted if and only if a filter for it strips some tag, and then the filter strips the opening,
the closing and the self-closing tag of the name and the opening one with attributes behind a blank,
in every case of its ASCII letters. The filter of any configuration strips all tags if it is told
to, and otherwise just the tags that bear one of the listed names; it counts the tags that it
strips. -/
theorem strips_iff_admitted :
    (∀ name : String, (Admits name ↔ ∃ tag, (MarkupFilter.stripTags [name]).strips tag = true) ∧
      (Admits name → ∀ (other : String) (blank : Char) (attributes : String),
        SameLetters name other → isSpace blank = true →
        ∀ tag ∈ ["<" ++ other ++ ">", "</" ++ other ++ ">", "<" ++ other ++ "/>",
          "<" ++ other ++ (String.singleton blank ++ attributes ++ ">")],
            (MarkupFilter.stripTags [name]).strips tag = true)) ∧
    ∀ (c : Config) (tags : List String),
      (c.markupFault? = none ↔ ∀ name ∈ c.stripTags, Admits name) ∧
      List.Forall₂ (fun tag answer =>
          answer.1 = true ↔ c.stripAll = true ∨ BearsOneOf c.stripTags tag)
        tags (c.filter.strippedCounts 0 tags) ∧
      c.filter.stripped tags = (c.filter.strippedCounts 0 tags).countP (·.1) := by
  simp only [MarkupFilter.strips_stripTags_iff]
  refine ⟨fun name => ⟨⟨fun h => ?_, fun ⟨tag, h⟩ => admits_of_bearsOneOf h⟩, ?_⟩, ?_⟩
  · have ended : ∀ c ∈ "".toList.head?, isTagChar c = false := nofun
    exact ⟨_, (bearsOneOf_of_admits h (.refl name) ended).1⟩
  · intro h other blank attributes same space tag htag
    have bears {rest : String} (stopped : ∀ c ∈ rest.toList.head?, isTagChar c = false) :=
      bearsOneOf_of_admits h same stopped
    have shut : ∀ c ∈ ">".toList.head?, isTagChar c = false := by
      rintro c ⟨rfl⟩
      decide
    have slashed : ∀ c ∈ "/>".toList.head?, isTagChar c = false := by
      rintro c ⟨rfl⟩
      decide
    have blanked : ∀ c ∈ (String.singleton blank ++ attributes ++ ">").toList.head?,
        isTagChar c = false := by
      simpa using isTagChar_of_isSpace space
    simp only [List.mem_cons, List.not_mem_nil, or_false] at htag
    rcases htag with rfl | rfl | rfl | rfl
    · exact (bears shut).1
    · exact (bears shut).2
    · exact (bears slashed).1
    · exact (bears blanked).1
  · intro c tags
    refine ⟨c.markupFault?_eq_none_iff, ?_, ?_⟩
    · refine (c.filter.forall₂_strippedCounts 0 tags).imp fun tag answer h => ?_
      rw [h, strips_filter_iff]
    · rw [MarkupFilter.stripped_eq_countP, MarkupFilter.countP_strippedCounts]

/-- A name with a hyphen in another case, with an attribute behind a blank that is not of ASCII. -/
theorem strips_iff_admitted_hyphen :
    let name := "My-Tag"
    let other := "mY-tAG"
    let tag := "<" ++ other ++ (String.singleton '\u2003' ++ "x=1" ++ ">")
    Admits name ∧ SameLetters name other ∧ isSpace '\u2003' = true ∧
      (MarkupFilter.stripTags [name]).strips tag = true := by
  intro name other tag
  have admitted : Admits name := admits_iff.2 (by decide)
  have same : SameLetters name other := sameLetters_iff.2 (by decide)
  have space : isSpace '\u2003' = true := by decide
  have made : tag ∈ ["<" ++ other ++ ">", "</" ++ other ++ ">", "<" ++ other ++ "/>", tag] := by
    simp
  exact ⟨admitted, same, space,
    (strips_iff_admitted.1 name).2 admitted other '\u2003' "x=1" same space tag made⟩

end Config

end MarkdownSpans
