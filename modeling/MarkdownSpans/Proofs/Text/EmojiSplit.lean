import Mathlib
import MarkdownSpans.Emoji
import MarkdownSpans.Proofs.Text.Space

/-!
# Replacing emoji in parts of a text

What stands for an emoji holds no white space, and whether a shortcode or a smiley is found does not
depend on what stands behind it. Hence white space separates what is replaced
(`replaceEmojiChars_append_space`), and a text may be replaced in two halves exactly if no shortcode
and no smiley is cut apart where it is split (`replaceEmojiChars_append_iff`).
-/

namespace MarkdownSpans

/-- No character is white space. -/
def Solid (cs : List Char) : Prop := ∀ c ∈ cs, isSpace c = false

instance (cs : List Char) : Decidable (Solid cs) :=
  decidable_of_iff (cs.all fun c => !isSpace c) (by simp [Solid])

theorem Solid.append {cs ds : List Char} (hc : Solid cs) (hd : Solid ds) : Solid (cs ++ ds) :=
  List.forall_mem_append.2 ⟨hc, hd⟩

theorem isSpace_of_isAlphanum {c : Char} (h : c.isAlphanum = true) : isSpace c = false := by
  simp only [Char.isAlphanum, Char.isAlpha, Char.isUpper, Char.isLower, Char.isDigit,
    Bool.or_eq_true, Bool.and_eq_true, decide_eq_true_eq, ge_iff_le, UInt32.le_iff_toNat_le,
    Char.isValue, Char.reduceVal, UInt32.reduceToNat, Char.toNat_val] at h
  have outside : ∀ range ∈ spaceRanges, ¬(range.1 ≤ c.toNat ∧ c.toNat ≤ range.2) := by
    simp only [spaceRanges, List.forall_mem_cons, List.not_mem_nil, false_implies,
      implies_true, and_true]
    omega
  exact List.any_eq_false.2 fun range hrange => by simpa using outside range hrange

theorem isSpace_of_isShortcodeChar {c : Char} (h : isShortcodeChar c = true) :
    isSpace c = false := by
  simp only [isShortcodeChar, Bool.or_eq_true, beq_iff_eq] at h
  rcases h with ((h | rfl) | rfl) | rfl
  · exact isSpace_of_isAlphanum h
  all_goals rfl

/-! ### Smileys -/

/-- The longest of some smileys at the start of a text, with its shortcode. -/
structure LongestSmiley (entries : List (String × String)) (cs smiley : List Char)
    (name : String) : Prop where
  mem : ∃ e ∈ entries, e.1.toList = smiley ∧ e.2 = name
  isPrefix : smiley <+: cs
  longest : ∀ e ∈ entries, e.1.toList <+: cs → e.1.toList.length ≤ smiley.length

/-- What is found among smileys is the longest of them at the start of the text. -/
def FoundSmiley (entries : List (String × String)) (cs : List Char) :
    Option (List Char × String) → Prop
  | none => ∀ e ∈ entries, ¬e.1.toList <+: cs
  | some (smiley, name) => LongestSmiley entries cs smiley name

/-- One more smiley changes what is found only if it stands there and is no shorter. -/
theorem FoundSmiley.concat {entries : List (String × String)} {cs : List Char}
    {best : Option (List Char × String)} (h : FoundSmiley entries cs best) (text name : String) :
    FoundSmiley (entries ++ [(text, name)]) cs
      (if text.toList.isPrefixOf cs && (best.all fun b => b.1.length ≤ text.toList.length) then
        some (text.toList, name)
      else best) := by
  split
  · next hfound =>
    rw [Bool.and_eq_true, List.isPrefixOf_iff_prefix] at hfound
    obtain ⟨hstart, hlonger⟩ := hfound
    refine ⟨⟨(text, name), by simp, rfl, rfl⟩, hstart, fun e he hcs => ?_⟩
    rcases List.mem_append.1 he with he | he
    · cases best with
      | none => exact absurd hcs (h e he)
      | some best => exact Nat.le_trans (h.longest e he hcs) (by simpa using hlonger)
    · rw [List.mem_singleton.1 he]
  · next hmissed =>
    rw [Bool.and_eq_true, List.isPrefixOf_iff_prefix, not_and] at hmissed
    cases best with
    | none =>
      have missed : ¬text.toList <+: cs := fun hcs => hmissed hcs rfl
      exact List.forall_mem_append.2 ⟨h, by simpa using missed⟩
    | some best =>
      obtain ⟨⟨e, he, hbest⟩, hcs, hlongest⟩ := h
      have shorter : text.toList <+: cs → text.toList.length ≤ best.1.length := fun hcs => by
        have := hmissed hcs
        simp only [Option.all_some, decide_eq_true_eq] at this
        omega
      exact ⟨⟨e, by simp [he], hbest⟩, hcs,
        List.forall_mem_append.2 ⟨hlongest, by simpa using shorter⟩⟩

theorem foundSmiley_longestSmiley? (cs : List Char) :
    FoundSmiley smileys cs (longestSmiley? cs) := by
  unfold longestSmiley?
  induction smileys using List.reverseRecOn with
  | nil => exact List.forall_mem_nil _
  | append_singleton entries e ih =>
    rw [List.foldl_append, List.foldl_cons, List.foldl_nil]
    exact ih.concat e.1 e.2

/-- Smileys are written with characters that are no white space. -/
theorem smileys_solid : ∀ e ∈ smileys, e.1.toList ≠ [] ∧ Solid e.1.toList := by
  decide +kernel

theorem smileys_nodup : (smileys.map Prod.fst).Nodup := by
  decide +kernel

section Smileys

variable {a b smiley : List Char} {name : String}

/-- A smiley that ends before the end of a text is found whatever follows the text. -/
theorem longestSmiley?_of_append (h : longestSmiley? (a ++ b) = some (smiley, name))
    (hle : smiley.length ≤ a.length) : longestSmiley? a = some (smiley, name) := by
  have found := foundSmiley_longestSmiley? (a ++ b)
  have found' := foundSmiley_longestSmiley? a
  rw [h] at found
  obtain ⟨⟨e, he, rfl, rfl⟩, hstart, hlongest⟩ := found
  have inside : e.1.toList <+: a :=
    List.prefix_of_prefix_length_le hstart (List.prefix_append a b) hle
  cases hbest : longestSmiley? a with
  | none =>
    rw [hbest] at found'
    exact absurd inside (found' e he)
  | some best =>
    rw [hbest] at found'
    obtain ⟨⟨e', he', hsmiley, hname⟩, hstart', hlongest'⟩ := found'
    -- The longest of the text is no longer than the longest of the longer text and stands in it.
    have length : best.1.length = e.1.toList.length := by
      refine Nat.le_antisymm ?_ (hlongest' e he inside)
      rw [← hsmiley]
      exact hlongest e' he' (hsmiley ▸ hstart'.trans (List.prefix_append a b))
    have same : e'.1.toList = e.1.toList := by
      rw [hsmiley]
      exact (List.prefix_of_prefix_length_le hstart' inside length.le).eq_of_length length
    obtain rfl : e' = e :=
      List.inj_on_of_nodup_map smileys_nodup he' he (String.toList_inj.1 same)
    rw [hsmiley, hname]

theorem longestSmiley?_eq_none_of_append (h : longestSmiley? (a ++ b) = none) :
    longestSmiley? a = none := by
  have found := foundSmiley_longestSmiley? (a ++ b)
  have found' := foundSmiley_longestSmiley? a
  rw [h] at found
  cases hbest : longestSmiley? a with
  | none => rfl
  | some best =>
    rw [hbest] at found'
    obtain ⟨⟨e, he, hsmiley, -⟩, hstart, -⟩ := found'
    exact absurd (hsmiley ▸ hstart.trans (List.prefix_append a b)) (found e he)

end Smileys

/-! ### Matches -/

variable {registry : EmojiRegistry} {a b cs : List Char} {m : EmojiMatch}

theorem shortcodeMatch?_eq_some_iff :
    shortcodeMatch? registry cs = some m ↔
      ∃ name rest emoji, name ≠ [] ∧ (∀ c ∈ name, isShortcodeChar c = true) ∧
        cs = ':' :: (name ++ ':' :: rest) ∧ registry (String.ofList name) = some emoji ∧
        m = ⟨emoji.toList, name.length + 2⟩ := by
  constructor
  · intro h
    unfold shortcodeMatch? at h
    split at h
    next rest =>
      dsimp only at h
      split at h
      next c name after hname hafter =>
        obtain ⟨emoji, hemoji, rfl⟩ := Option.map_eq_some_iff.1 h
        refine ⟨rest.takeWhile isShortcodeChar, after, emoji, by simp [hname], ?_, ?_, hemoji, rfl⟩
        · exact fun c hc => List.all_eq_true.1 List.all_takeWhile c hc
        · rw [← hafter, List.prefix_iff_eq_append.1 (List.takeWhile_prefix _)]
      next => cases h
    next => cases h
  · rintro ⟨name, rest, emoji, hne, hname, rfl, hemoji, rfl⟩
    have taken : (name ++ ':' :: rest).takeWhile isShortcodeChar = name := by
      rw [List.takeWhile_append_of_pos hname, List.takeWhile_cons_of_neg (by decide),
        List.append_nil]
    obtain ⟨c, tail, rfl⟩ := List.exists_cons_of_ne_nil hne
    simp only [shortcodeMatch?, taken, List.drop_left, hemoji, Option.map_some]

/-- A shortcode is found whatever follows it. -/
theorem shortcodeMatch?_append (h : shortcodeMatch? registry a = some m) (b : List Char) :
    shortcodeMatch? registry (a ++ b) = some m := by
  obtain ⟨name, rest, emoji, hne, hname, rfl, hemoji, rfl⟩ := shortcodeMatch?_eq_some_iff.1 h
  exact shortcodeMatch?_eq_some_iff.2
    ⟨name, rest ++ b, emoji, hne, hname, by simp, hemoji, rfl⟩

/-- A shortcode that ends before the end of a text is found whatever follows the text. -/
theorem shortcodeMatch?_of_append (h : shortcodeMatch? registry (a ++ b) = some m)
    (hle : m.length ≤ a.length) : shortcodeMatch? registry a = some m := by
  obtain ⟨name, rest, emoji, hne, hname, hcut, hemoji, rfl⟩ := shortcodeMatch?_eq_some_iff.1 h
  have whole : ':' :: (name ++ [':']) <+: a ++ b := ⟨rest, by simp [hcut]⟩
  have width : (':' :: (name ++ [':'])).length = name.length + 2 := by simp
  obtain ⟨after, rfl⟩ :=
    List.prefix_of_prefix_length_le whole (List.prefix_append a b) (width ▸ hle)
  exact shortcodeMatch?_eq_some_iff.2
    ⟨name, after, emoji, hne, hname, by simp, hemoji, rfl⟩

theorem smileyMatch?_eq_some_iff :
    smileyMatch? registry cs = some m ↔
      ∃ smiley name emoji, longestSmiley? cs = some (smiley, name) ∧ registry name = some emoji ∧
        m = ⟨emoji.toList, smiley.length⟩ := by
  rw [smileyMatch?, Option.bind_eq_some_iff]
  simp only [Prod.exists, Option.map_eq_some_iff]
  simp only [eq_comm (a := m), exists_and_left]

/-- The emoji of every smiley is known. -/
def EmojiRegistry.KnowsSmileys (registry : EmojiRegistry) : Prop :=
  ∀ e ∈ smileys, (registry e.2).isSome

theorem EmojiRegistry.KnowsSmileys.smileyMatch?_eq_none_iff (h : registry.KnowsSmileys) :
    smileyMatch? registry cs = none ↔ longestSmiley? cs = none := by
  have found := foundSmiley_longestSmiley? cs
  cases hbest : longestSmiley? cs with
  | none => simp [smileyMatch?, hbest]
  | some best =>
    rw [hbest] at found
    obtain ⟨⟨e, he, -, hname⟩, -⟩ := found
    obtain ⟨emoji, hemoji⟩ := Option.isSome_iff_exists.1 (h e he)
    simp [smileyMatch?, hbest, ← hname, hemoji]

/-- What is matched stands at the start of the text and holds no white space. -/
theorem exists_matched (h : emojiMatch? registry cs = some m) :
    ∃ matched rest, cs = matched ++ rest ∧ matched.length = m.length ∧ matched ≠ [] ∧
      Solid matched := by
  rcases Option.or_eq_some_iff.1 h with h | ⟨-, h⟩
  · obtain ⟨name, rest, emoji, hne, hname, rfl, hemoji, rfl⟩ := shortcodeMatch?_eq_some_iff.1 h
    have solid : Solid (':' :: (name ++ [':'])) := by
      refine List.forall_mem_cons.2 ⟨rfl, Solid.append (fun c hc => ?_) (by decide)⟩
      exact isSpace_of_isShortcodeChar (hname c hc)
    exact ⟨':' :: (name ++ [':']), rest, by simp, by simp, by simp, solid⟩
  · obtain ⟨smiley, name, emoji, hbest, -, rfl⟩ := smileyMatch?_eq_some_iff.1 h
    have found := foundSmiley_longestSmiley? cs
    rw [hbest] at found
    obtain ⟨⟨e, he, rfl, -⟩, ⟨rest, rfl⟩, -⟩ := found
    exact ⟨e.1.toList, rest, rfl, rfl, smileys_solid e he⟩

/-- A match that ends before the end of a text is found whatever follows the text. -/
theorem emojiMatch?_of_append (h : emojiMatch? registry (a ++ b) = some m)
    (hle : m.length ≤ a.length) : emojiMatch? registry a = some m := by
  rcases Option.or_eq_some_iff.1 h with h | ⟨hnone, h⟩
  · rw [emojiMatch?, shortcodeMatch?_of_append h hle, Option.some_or]
  · -- A shortcode in the text alone would have been found in the longer text, too.
    have none_before : shortcodeMatch? registry a = none := by
      by_contra hsome
      obtain ⟨found, hfound⟩ := Option.ne_none_iff_exists'.1 hsome
      rw [shortcodeMatch?_append hfound b] at hnone
      cases hnone
    obtain ⟨smiley, name, emoji, hbest, hemoji, rfl⟩ := smileyMatch?_eq_some_iff.1 h
    rw [emojiMatch?, none_before, Option.none_or]
    exact smileyMatch?_eq_some_iff.2
      ⟨smiley, name, emoji, longestSmiley?_of_append hbest hle, hemoji, rfl⟩

/-- Where a longer text has no match, a shorter one has none. -/
theorem emojiMatch?_eq_none_of_append (hknown : registry.KnowsSmileys)
    (h : emojiMatch? registry (a ++ b) = none) : emojiMatch? registry a = none := by
  obtain ⟨hshortcode, hsmiley⟩ := Option.or_eq_none_iff.1 h
  refine Option.or_eq_none_iff.2 ⟨?_, ?_⟩
  · by_contra hsome
    obtain ⟨found, hfound⟩ := Option.ne_none_iff_exists'.1 hsome
    rw [shortcodeMatch?_append hfound b] at hshortcode
    cases hshortcode
  · rw [hknown.smileyMatch?_eq_none_iff] at hsmiley ⊢
    exact longestSmiley?_eq_none_of_append hsmiley

/-- White space behind a text does not change what is found. -/
theorem emojiMatch?_append_space (hknown : registry.KnowsSmileys) {s : Char}
    (hs : isSpace s = true) : emojiMatch? registry (a ++ s :: b) = emojiMatch? registry a := by
  cases hm : emojiMatch? registry (a ++ s :: b) with
  | none => rw [emojiMatch?_eq_none_of_append hknown hm]
  | some m =>
    obtain ⟨matched, rest, hcut, hlength, -, hsolid⟩ := exists_matched hm
    have inside : m.length ≤ a.length := by
      -- Otherwise the white space would be a part of what is matched.
      by_contra hlonger
      have longer : a ++ [s] <+: a ++ s :: b := ⟨b, by simp⟩
      have whole : a ++ [s] <+: matched :=
        List.prefix_of_prefix_length_le longer ⟨rest, hcut.symm⟩ (by simp; omega)
      have := hsolid s (whole.subset (by simp))
      rw [hs] at this
      cases this
    rw [emojiMatch?_of_append hm inside]

/-! ### Replacing -/

theorem replaceEmojiChars_nil (p : Bool) : replaceEmojiChars registry p [] = [] := by
  rw [replaceEmojiChars]

/-- What is matched where an emoji may start is replaced. -/
theorem replaceEmojiChars_of_match {matched rest : List Char}
    (h : emojiMatch? registry (matched ++ rest) = some m) (hlength : matched.length = m.length)
    (hne : matched ≠ []) :
    replaceEmojiChars registry true (matched ++ rest) =
      m.emoji ++ replaceEmojiChars registry false rest := by
  obtain ⟨c, tail, rfl⟩ := List.exists_cons_of_ne_nil hne
  have drop : (tail ++ rest).drop (m.length - 1) = rest := by
    rw [← hlength]
    simp
  rw [List.cons_append] at h ⊢
  rw [replaceEmojiChars, if_pos rfl, h]
  simp only [drop]

theorem replaceEmojiChars_cons_of_none {c : Char} {p : Bool}
    (h : p = true → emojiMatch? registry (c :: a) = none) :
    replaceEmojiChars registry p (c :: a) = c :: replaceEmojiChars registry (isSpace c) a := by
  rw [replaceEmojiChars]
  cases p with
  | false => rfl
  | true => rw [if_pos rfl, h rfl]

/-- Characters behind one that is no white space stay. -/
theorem replaceEmojiChars_solid (registry : EmojiRegistry) (ha : Solid a) (b : List Char) :
    replaceEmojiChars registry false (a ++ b) = a ++ replaceEmojiChars registry false b := by
  induction a with
  | nil => rfl
  | cons c rest ih =>
    obtain ⟨hc, hrest⟩ := List.forall_mem_cons.1 ha
    rw [List.cons_append, replaceEmojiChars_cons_of_none (by simp), hc, ih hrest, List.cons_append]

/-- **White space separates what is replaced.** -/
theorem replaceEmojiChars_append_space (hknown : registry.KnowsSmileys) {s : Char}
    (hs : isSpace s = true) (p : Bool) :
    replaceEmojiChars registry p (a ++ s :: b) =
      replaceEmojiChars registry p a ++ s :: replaceEmojiChars registry true b := by
  have space : ∀ cs, emojiMatch? registry (s :: cs) = none := fun cs => by
    by_contra hsome
    obtain ⟨found, hfound⟩ := Option.ne_none_iff_exists'.1 hsome
    obtain ⟨matched, rest, hcut, -, hne, hsolid⟩ := exists_matched hfound
    obtain ⟨c, tail, rfl⟩ := List.exists_cons_of_ne_nil hne
    obtain ⟨rfl, -⟩ := List.cons.inj hcut
    rw [hsolid s (.head _)] at hs
    cases hs
  induction p, a using replaceEmojiChars.induct registry with
  | case1 p =>
    rw [List.nil_append, replaceEmojiChars_cons_of_none fun _ => space b, hs, replaceEmojiChars_nil]
    rfl
  | case2 p c rest found h ih =>
    -- White space ends what was found, so the rest begins at the same place in both texts.
    obtain ⟨rfl, hfound⟩ : p = true ∧ emojiMatch? registry (c :: rest) = some found := by
      cases p with
      | false => cases h
      | true => exact ⟨rfl, h⟩
    obtain ⟨matched, after, hcut, hlength, hne, -⟩ := exists_matched hfound
    obtain ⟨d, tail, rfl⟩ := List.exists_cons_of_ne_nil hne
    obtain ⟨rfl, rest_eq⟩ : c = d ∧ rest = tail ++ after := List.cons.inj hcut
    subst rest_eq
    have drop : (tail ++ after).drop (found.length - 1) = after := by
      rw [← hlength]
      simp
    have hfound' : emojiMatch? registry (c :: tail ++ (after ++ s :: b)) = some found := by
      rw [← List.append_assoc, emojiMatch?_append_space hknown hs]
      exact hfound
    rw [drop] at ih
    rw [← List.cons_append, List.append_assoc, replaceEmojiChars_of_match hfound' hlength hne, ih,
      replaceEmojiChars_of_match hfound hlength hne, List.append_assoc]
  | case3 p c rest h ih =>
    have none_here : p = true → emojiMatch? registry (c :: rest) = none := by
      rintro rfl
      exact h
    have none_here' : p = true → emojiMatch? registry (c :: (rest ++ s :: b)) = none := by
      intro hp
      rw [← List.cons_append, emojiMatch?_append_space hknown hs, none_here hp]
    rw [List.cons_append, replaceEmojiChars_cons_of_none none_here',
      replaceEmojiChars_cons_of_none none_here, ih, List.cons_append]

/-! ### Splitting a text -/

/-- The characters at the end of a text behind its last white space. -/
def lastWord (cs : List Char) : List Char := cs.rtakeWhile (!isSpace ·)

/-- Whether an emoji may start behind a text, where `p` tells whether one may start before it. -/
def boundaryAfter (p : Bool) (cs : List Char) : Bool := (cs.getLast?.map isSpace).getD p

/-- Splitting a text cuts a shortcode or a smiley apart: one starts with the last word of the first
half, where an emoji may start, and reaches into the second half. -/
def CutsEmoji (registry : EmojiRegistry) (p : Bool) (a b : List Char) : Prop :=
  lastWord a ≠ [] ∧ (lastWord a = a → p = true) ∧
    ∃ m ∈ emojiMatch? registry (lastWord a ++ b), (lastWord a).length < m.length

instance (registry : EmojiRegistry) (p : Bool) (a b : List Char) :
    Decidable (CutsEmoji registry p a b) :=
  inferInstanceAs (Decidable (_ ∧ _ ∧ ∃ m ∈ emojiMatch? registry (lastWord a ++ b), _))

theorem solid_lastWord (cs : List Char) : Solid (lastWord cs) := by
  intro c hc
  simpa using List.mem_rtakeWhile_imp hc

/-- Before the last word of a text stands nothing or white space. -/
theorem eq_lastWord_or (cs : List Char) :
    lastWord cs = cs ∨ ∃ init s, isSpace s = true ∧ cs = init ++ s :: lastWord cs := by
  have cut := List.rdropWhile_append_rtakeWhile (p := (!isSpace ·)) (l := cs)
  cases hinit : cs.rdropWhile (!isSpace ·) using List.reverseRecOn with
  | nil =>
    rw [hinit, List.nil_append] at cut
    exact .inl cut
  | append_singleton init s =>
    refine .inr ⟨init, s, ?_, ?_⟩
    · have last : s ∈ (cs.rdropWhile (!isSpace ·)).getLast? := by simp [hinit]
      simpa using eq_false_of_mem_getLast?_rdropWhile last
    · rw [hinit, List.append_assoc] at cut
      exact cut.symm

theorem boundaryAfter_of_solid {p : Bool} {w : List Char} (hw : Solid w) (hne : w ≠ []) :
    boundaryAfter p w = false := by
  rw [boundaryAfter, List.getLast?_eq_some_getLast hne, Option.map_some, Option.getD_some]
  exact hw _ (List.getLast_mem hne)

section Split

variable {w : List Char} {p : Bool}

theorem replaceEmojiChars_of_solid (hw : Solid w) : replaceEmojiChars registry false w = w := by
  simpa [replaceEmojiChars_nil] using replaceEmojiChars_solid registry hw []

/-- A word is replaced by itself if nothing that starts with it reaches behind it. -/
theorem replaceEmojiChars_append_word (hknown : registry.KnowsSmileys) (hw : Solid w)
    (hne : w ≠ [])
    (h : p = true → ∀ m ∈ emojiMatch? registry (w ++ b), m.length ≤ w.length) :
    replaceEmojiChars registry p (w ++ b) =
      replaceEmojiChars registry p w ++ replaceEmojiChars registry false b := by
  cases p with
  | false => rw [replaceEmojiChars_solid _ hw, replaceEmojiChars_of_solid hw]
  | true =>
    cases hm : emojiMatch? registry (w ++ b) with
    | none =>
      have hm' := emojiMatch?_eq_none_of_append hknown hm
      obtain ⟨c, tail, rfl⟩ := List.exists_cons_of_ne_nil hne
      obtain ⟨hc, htail⟩ := List.forall_mem_cons.1 hw
      rw [List.cons_append] at hm ⊢
      rw [replaceEmojiChars_cons_of_none fun _ => hm,
        replaceEmojiChars_cons_of_none fun _ => hm', hc, replaceEmojiChars_solid _ htail,
        replaceEmojiChars_of_solid htail, List.cons_append]
    | some m =>
      have hm' := emojiMatch?_of_append hm (h rfl m hm)
      obtain ⟨matched, after, rfl, hlength, hmatched, -⟩ := exists_matched hm'
      have hafter : Solid after := fun c hc => hw c (List.mem_append_right _ hc)
      rw [List.append_assoc] at hm ⊢
      rw [replaceEmojiChars_of_match hm hlength hmatched, replaceEmojiChars_solid _ hafter,
        replaceEmojiChars_of_match hm' hlength hmatched, replaceEmojiChars_of_solid hafter,
        List.append_assoc]

/-- No emoji ends like the shortcode or the smiley that stands for it. -/
def EmojiRegistry.ChangesEnds (registry : EmojiRegistry) : Prop :=
  ∀ cs, ∀ m ∈ emojiMatch? registry cs, m.emoji.getLast? ≠ (cs.take m.length).getLast?

/-- A shortcode or smiley that reaches behind a word is not found once the text is split there. -/
theorem replaceEmojiChars_append_word_ne (hends : registry.ChangesEnds)
    (hm : emojiMatch? registry (w ++ b) = some m) (hlt : w.length < m.length) :
    replaceEmojiChars registry true (w ++ b) ≠
      replaceEmojiChars registry true w ++ replaceEmojiChars registry false b := by
  obtain ⟨matched, after, hcut, hlength, hmatched, hsolid⟩ := exists_matched hm
  obtain ⟨more, rfl⟩ : w <+: matched :=
    List.prefix_of_prefix_length_le (List.prefix_append w b) ⟨after, hcut.symm⟩ (by omega)
  obtain rfl : b = more ++ after := by simpa using hcut
  have hmore : more ≠ [] := by
    rintro rfl
    simp at hlength
    omega
  have more_solid : Solid more := fun c hc => hsolid c (List.mem_append_right _ hc)
  have ends := hends _ m hm
  rw [hcut] at hm ⊢
  rw [replaceEmojiChars_of_match hm hlength hmatched, replaceEmojiChars_solid _ more_solid,
    ← List.append_assoc]
  intro heq
  rw [List.append_cancel_right heq, hcut, ← hlength, List.take_left,
    List.getLast?_append_of_ne_nil _ hmore, List.getLast?_append_of_ne_nil _ hmore] at ends
  exact ends rfl

/-- What is replaced before the last word of a text is the same whatever follows. -/
theorem exists_replaceEmojiChars_lastWord (hknown : registry.KnowsSmileys) (p : Bool)
    (a : List Char) :
    ∃ q, (q = true ↔ (lastWord a = a → p = true)) ∧
      boundaryAfter p a = boundaryAfter q (lastWord a) ∧
      ∀ b after, replaceEmojiChars registry p (a ++ b) =
          replaceEmojiChars registry p a ++ after ↔
        replaceEmojiChars registry q (lastWord a ++ b) =
          replaceEmojiChars registry q (lastWord a) ++ after := by
  rcases eq_lastWord_or a with hword | ⟨init, s, hs, ha⟩
  · -- The text is one word, and whether an emoji may start there is told from outside.
    exact ⟨p, by simp [hword], by rw [hword], by simp [hword]⟩
  · have longer : lastWord a ≠ a := fun h => by
      have := congrArg List.length ha
      simp [h] at this
      omega
    refine ⟨true, by simp [longer], ?_, fun b after => ?_⟩
    · conv_lhs => rw [ha]
      cases lastWord a with
      | nil => simp [boundaryAfter, hs]
      | cons c rest => simp [boundaryAfter, List.getLast?_cons]
    · conv_lhs => rw [ha]
      simp only [List.append_assoc, List.cons_append,
        replaceEmojiChars_append_space hknown hs]
      simp

/-- **A text may be replaced in two halves exactly if splitting it cuts no emoji apart.** -/
theorem replaceEmojiChars_append_iff (hknown : registry.KnowsSmileys)
    (hends : registry.ChangesEnds) (p : Bool) (a b : List Char) :
    replaceEmojiChars registry p (a ++ b) =
        replaceEmojiChars registry p a ++ replaceEmojiChars registry (boundaryAfter p a) b ↔
      ¬CutsEmoji registry p a b := by
  obtain ⟨q, hq, hboundary, hlast⟩ := exists_replaceEmojiChars_lastWord hknown p a
  rw [hlast, hboundary, CutsEmoji, ← hq]
  by_cases hne : lastWord a = []
  · simp [hne, boundaryAfter, replaceEmojiChars_nil]
  rw [boundaryAfter_of_solid (solid_lastWord a) hne]
  constructor
  · -- The end of the replaced text tells the two apart.
    rintro heq ⟨-, rfl, m, hm, hlt⟩
    exact replaceEmojiChars_append_word_ne hends hm hlt heq
  · intro h
    refine replaceEmojiChars_append_word hknown (solid_lastWord a) hne fun hp m hm => ?_
    by_contra hlt
    exact h ⟨hne, hp, m, hm, by omega⟩

end Split

/-! ### The known emoji -/

theorem knowsSmileys_knownEmoji : knownEmoji.KnowsSmileys := by
  unfold EmojiRegistry.KnowsSmileys
  decide +kernel

/-- No known emoji ends with a colon. -/
theorem emojiTable_ends :
    ∀ e ∈ emojiTable, (e.2.map Char.ofNat).getLast? ≠ some ':' := by
  decide +kernel

/-- No smiley ends like its emoji. -/
theorem smileys_ends :
    ∀ e ∈ smileys, ∀ emoji ∈ knownEmoji e.2, emoji.toList.getLast? ≠ e.1.toList.getLast? := by
  decide +kernel

theorem changesEnds_knownEmoji : knownEmoji.ChangesEnds := by
  intro cs m hm
  rcases Option.or_eq_some_iff.1 hm with hm | ⟨-, hm⟩
  · obtain ⟨name, rest, emoji, -, -, rfl, hemoji, rfl⟩ := shortcodeMatch?_eq_some_iff.1 hm
    obtain ⟨points, hpoints, rfl⟩ := Option.map_eq_some_iff.1 hemoji
    obtain ⟨before, after, htable, -⟩ := List.lookup_eq_some_iff.1 hpoints
    have member : (String.ofList name, points) ∈ emojiTable := by
      rw [htable]
      simp
    have whole : (':' :: (name ++ ':' :: rest)).take (name.length + 2) = ':' :: name ++ [':'] := by
      simp [List.take_append]
    rw [whole, List.getLast?_concat, String.toList_ofList]
    exact emojiTable_ends _ member
  · obtain ⟨smiley, name, emoji, hbest, hemoji, rfl⟩ := smileyMatch?_eq_some_iff.1 hm
    have found := foundSmiley_longestSmiley? cs
    rw [hbest] at found
    obtain ⟨⟨e, he, rfl, rfl⟩, ⟨rest, rfl⟩, -⟩ := found
    rw [List.take_left]
    exact smileys_ends e he emoji hemoji

end MarkdownSpans
