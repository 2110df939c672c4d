import Mathlib
import MarkdownSpans.Proofs.Text.EmojiSplit
import MarkdownSpans.Proofs.Tree.Reading
import MarkdownSpans.Proofs.Tree.Translation

/-!
# Runs of text in two events

A reader may report a run of text in two events. With emoji left alone this makes no difference;
with emoji replaced it makes one exactly if the two events cut a shortcode or a smiley apart, since
each event is replaced by itself (`Document.ofEvents?_joinText_iff`). What the emoji are is left
open, but for the two things that the equivalence rests on: the smileys are known, and no emoji ends
like what stands for it.
-/

namespace MarkdownSpans

/-! ### Adjacent slices -/

/-- What stands before two adjacent slices of a source, and what stands behind them. -/
structure Adjacent (source : List Char) (i j k : Nat) (a b before after : List Char) : Prop where
  source : source = before ++ (a ++ (b ++ after))
  first : byteLength before = i
  second : byteLength (before ++ a) = j
  last : byteLength (before ++ (a ++ b)) = k

theorem exists_adjacent {source : String} {i j k : Nat} {a b : String}
    (ha : sliceBytes source i j = some a) (hb : sliceBytes source j k = some b) :
    ∃ before after, Adjacent source.toList i j k a.toList b.toList before after := by
  obtain ⟨cs, hcs, rfl⟩ := Option.map_eq_some_iff.1 ha
  obtain ⟨ds, hds, rfl⟩ := Option.map_eq_some_iff.1 hb
  obtain ⟨before, rest, hsource, hi, hj⟩ := exists_of_sliceChars hcs
  obtain ⟨before', after, hsource', hj', hk⟩ := exists_of_sliceChars hds
  -- The two cuts at the middle position are one.
  have cut : before' = before ++ cs := by
    have take := takeBytes_append (before ++ cs) rest
    have take' := takeBytes_append before' (ds ++ after)
    rw [← List.append_assoc, ← hsource', hj', ← hj, hsource, take] at take'
    exact (Option.some.inj take').symm
  subst cut
  refine ⟨before, after, ?_, hi, ?_, ?_⟩
  · simpa using hsource'
  · simpa using hj
  · simpa using hk

namespace Adjacent

variable {source : List Char} {i j k : Nat} {a b before after : List Char}

theorem le (h : Adjacent source i j k a b before after) : i ≤ j ∧ j ≤ k := by
  have first := h.first
  have second := h.second
  have last := h.last
  simp only [byteLength_append] at second last
  omega

theorem slice_first (h : Adjacent source i j k a b before after) :
    sliceChars source i j = some a ∧ takeBytes source i = some before := by
  rw [h.source, ← h.first, ← h.second]
  exact ⟨by simpa using sliceChars_append before a (b ++ after), takeBytes_append ..⟩

theorem slice_second (h : Adjacent source i j k a b before after) :
    sliceChars source j k = some b ∧ takeBytes source j = some (before ++ a) := by
  rw [h.source, ← h.second, ← h.last]
  exact ⟨by simpa using sliceChars_append (before ++ a) b after,
    by simpa using takeBytes_append (before ++ a) (b ++ after)⟩

theorem slice_both (h : Adjacent source i j k a b before after) :
    sliceChars source i k = some (a ++ b) := by
  rw [h.source, ← h.first, ← h.last]
  simpa using sliceChars_append before (a ++ b) after

end Adjacent

/-! ### Literals -/

theorem pushInline_literal (x y : String) (reversed : List Inline) :
    pushInline (.literal y) (pushInline (.literal x) reversed) =
      pushInline (.literal (x ++ y)) reversed := by
  match reversed with
  | [] => rfl
  | i :: rest => cases i <;> simp [pushInline, String.append_assoc]

/-- A literal that is pushed on another one joins it. -/
theorem Leaf.pushAll_literals (x y : String) (leaf : Leaf) :
    leaf.pushAll [.literal x, .literal y] = leaf.pushAll [.literal (x ++ y)] := by
  show (leaf.push (.literal x)).push (.literal y) = leaf.push (.literal (x ++ y))
  unfold Leaf.push
  cases hframes : leaf.frames with
  | nil => simp [pushInline_literal]
  | cons frame rest => simp [pushInline_literal]

/-- The text that a run of text stands for in a document. -/
def shownText (options : BuildOptions) (before : List Char) (content : String) : String :=
  if options.emoji then replaceEmoji options.registry content (boundaryAfter true before)
  else content

theorem boundaryAfter_append (p : Bool) (before a : List Char) :
    boundaryAfter p (before ++ a) = boundaryAfter (boundaryAfter p before) a := by
  rw [boundaryAfter, List.getLast?_append]
  cases ha : a.getLast? <;> simp [boundaryAfter, ha]

/-- Two halves of a text are shown as the text unless an emoji is cut apart. -/
theorem shownText_append_iff {options : BuildOptions} (hknown : options.registry.KnowsSmileys)
    (hends : options.registry.ChangesEnds) (before : List Char) (a b : String) :
    shownText options before (a ++ b) =
        shownText options before a ++ shownText options (before ++ a.toList) b ↔
      options.emoji = false ∨
        ¬CutsEmoji options.registry (boundaryAfter true before) a.toList b.toList := by
  cases hemoji : options.emoji with
  | false => simp [shownText, hemoji]
  | true =>
    rw [← replaceEmojiChars_append_iff hknown hends]
    simp [shownText, hemoji, replaceEmoji, boundaryAfter_append, ← String.toList_inj]

namespace Builder

theorem textInline_of_slice (options : BuildOptions) (content : String) (before : List Char) :
    textInline options content content.toList before =
      .literal (shownText options before content) := by
  rw [textInline, if_neg (by simp), shownText]
  cases options.emoji <;> rfl

/-! ### Two events in a row -/

section TwoTexts

variable {b : Builder} {i j k : Nat} {x y : String} {before after : List Char}

theorem addText_of_takeBytes {range : ByteRange} (h : ∀ leaf ∈ b.leaf, leaf.kind.holdsInlines)
    (hraw : sliceChars b.source range.start range.stop = some x.toList)
    (hbefore : takeBytes b.source range.start = some before) :
    b.addText x range = b.addInline (.literal (shownText b.options before x)) range := by
  rw [addText_of_slice h hraw hbefore, textInline_of_slice]

/-- In a leaf that is open, the second text joins the first. -/
theorem addText_addText_of_leaf {leaf : Leaf} (hleaf : b.leaf = some leaf)
    (hkind : leaf.kind.holdsInlines)
    (h : Adjacent b.source i j k x.toList y.toList before after) :
    (b.addText x ⟨i, j⟩).bind (·.addText y ⟨j, k⟩) =
      b.addInline (.literal (shownText b.options before x ++
        shownText b.options (before ++ x.toList) y)) ⟨i, k⟩ := by
  have holds : ∀ leaf ∈ b.leaf, leaf.kind.holdsInlines := by
    intro leaf' hleaf'
    obtain rfl : leaf = leaf' := Option.some.inj (hleaf.symm.trans hleaf')
    exact hkind
  obtain ⟨hraw, hbefore⟩ := h.slice_first
  obtain ⟨hraw', hbefore'⟩ := h.slice_second
  have stop : max (max leaf.stop j) k = max leaf.stop k := by
    have := h.le
    omega
  have holds₁ : ∀ leaf' ∈ some ((leaf.pushAll
      [.literal (shownText b.options before x)]).stopAt (max leaf.stop j)),
      leaf'.kind.holdsInlines := by
    rintro _ ⟨⟩
    rwa [Leaf.stopAt_kind, Leaf.pushAll_kind]
  rw [addText_of_takeBytes holds hraw hbefore, addInline_of_leaf hleaf, Option.bind_some,
    addText_of_takeBytes holds₁ hraw' hbefore', addInline_of_leaf rfl, addInline_of_leaf hleaf,
    Leaf.pushAll_stopAt, Leaf.stopAt_stopAt, ← Leaf.pushAll_append, List.singleton_append,
    Leaf.pushAll_literals]
  show some { b with leaf := some (Leaf.stopAt (max (max leaf.stop j) k) _) } = _
  rw [stop]

/-- **Two texts in a row are one text** if splitting it changes nothing of what it is shown as. -/
theorem addText_addText (h : Adjacent b.source i j k x.toList y.toList before after)
    (hshown : shownText b.options before (x ++ y) =
      shownText b.options before x ++ shownText b.options (before ++ x.toList) y) :
    (b.addText x ⟨i, j⟩).bind (·.addText y ⟨j, k⟩) = b.addText (x ++ y) ⟨i, k⟩ := by
  have hboth : sliceChars b.source i k = some (x ++ y).toList := by
    simpa using h.slice_both
  obtain ⟨-, hbefore⟩ := h.slice_first
  have opened {leaf : Leaf} (b₁ : Builder) (hreading : b₁.reading = b.reading)
      (hleaf : b₁.leaf = some leaf) (hkind : leaf.kind.holdsInlines) :
      (b₁.addText x ⟨i, j⟩).bind (·.addText y ⟨j, k⟩) = b₁.addText (x ++ y) ⟨i, k⟩ := by
    have source : b₁.source = b.source := congrArg Prod.fst hreading
    have options : b₁.options = b.options := congrArg Prod.snd hreading
    have holds : ∀ leaf ∈ b₁.leaf, leaf.kind.holdsInlines := by simp [hleaf, hkind]
    rw [addText_addText_of_leaf hleaf hkind (source ▸ h), options, ← hshown,
      addText_of_takeBytes holds (source ▸ hboth) (source ▸ hbefore), options]
  cases hleaf : b.leaf with
  | none =>
    cases hbegin : b.beginLeaf (.paragraph true) i with
    | none =>
      rw [addText_eq_none hleaf hbegin, addText_eq_none hleaf hbegin]
      rfl
    | some b₁ =>
      obtain ⟨leaf, hleaf₁, hkind⟩ := exists_leaf_of_beginLeaf hbegin
      rw [addText_of_beginLeaf hleaf hbegin, addText_of_beginLeaf hleaf hbegin]
      exact opened b₁ (reading_beginLeaf hbegin) hleaf₁ (by rw [hkind]; rfl)
  | some leaf =>
    by_cases hkind : leaf.kind.holdsInlines
    · exact opened b rfl hleaf hkind
    · -- Text of code and of markup is put together without a look at it.
      obtain ⟨kind, start, stop, linesBefore, root, frames⟩ := leaf
      cases kind with
      | paragraph _ | heading _ => exact absurd rfl hkind
      | code _ _ | html _ => simp [addText, mapLeaf, hleaf, String.append_assoc]

end TwoTexts

/-- A block that is built by itself is all of the document. -/
theorem Builds.ofEvents? {source : String} {options : ParseOptions} {registry : EmojiRegistry}
    {n : Nat} {isParagraph : Bool} {events : List RangedEvent} {expected : Block}
    (h : Builds source.toList ⟨options, registry⟩ n isParagraph events expected)
    (hn : n ≤ options.maxDepth) :
    ∃ built, Document.ofEvents? source [] options events registry = some ⟨[built]⟩ ∧
      expected.Agrees built := by
  obtain ⟨built, cursor, hbuilt, hcursor, hrun⟩ :=
    h { kind := .document } [] 0 (by simpa using hn) (.zero _)
  have outermost : loosened [{ kind := .document }] = [{ kind := .document }] :=
    loosened_of_ne_item (by simp) []
  rw [outermost, ite_self] at hrun
  obtain ⟨trailing, htrailing⟩ := hcursor.exists_gap (.length _) false
  have whole : Document.ofEvents? source [] options events registry =
      some ⟨(withTrailing trailing [built]).reverse⟩ := ofEvents?_of_run rfl hrun htrailing
  unfold withTrailing at whole
  split at whole
  · exact ⟨built, whole, hbuilt⟩
  · exact ⟨_, whole, hbuilt.withTrivia _⟩

end Builder

theorem Block.Agrees.exists_paragraph {is : List Inline} {t : Trivia} {built : Block}
    (h : (Block.paragraph is t).Agrees built) :
    ∃ ending t', built = .paragraph (is ++ ending) t' := by
  cases h
  exact ⟨_, _, rfl⟩

/-- A paragraph that was built tells the literal it begins with. -/
theorem Block.Agrees.literal_inj {x y : String} {t : Trivia} {built : Block}
    (h : (Block.paragraph [.literal x] t).Agrees built)
    (h' : (Block.paragraph [.literal y] t).Agrees built) : x = y := by
  obtain ⟨ending, t₁, rfl⟩ := h.exists_paragraph
  obtain ⟨ending', t₂, heq⟩ := h'.exists_paragraph
  simp only [List.singleton_append, Block.paragraph.injEq, List.cons.injEq,
    Inline.literal.injEq] at heq
  exact heq.1.1

namespace Builder

/-- A run of text in one event adds one literal. -/
theorem appends_text {source before : List Char} {start stop : Nat} {content : String}
    (options : BuildOptions) (hraw : sliceChars source start stop = some content.toList)
    (hbefore : takeBytes source start = some before) :
    Appends source options 0 [⟨.text content, ⟨start, stop⟩⟩]
      [.literal (shownText options before content)] := by
  have fits : (ByteRange.mk start stop).Fits source := .of_sliceChars hraw
  refine .single fits fun containers leaf cursor hkind => ?_
  have holds : ∀ leaf' ∈ some leaf, leaf'.kind.holdsInlines := by
    rintro _ ⟨⟩
    exact hkind
  exact addText_of_takeBytes holds hraw hbefore

end Builder

namespace Document

open Builder

section JoinText

variable {source : String} {options : ParseOptions} {registry : EmojiRegistry} {i j k : Nat}
  {a b : String}

/-- A paragraph of two texts in a row and a paragraph of one, the second of which is told from the
first if the texts are shown otherwise. -/
theorem exists_ofEvents?_ne {before after : List Char}
    (h : Adjacent source.toList i j k a.toList b.toList before after)
    (hne : shownText ⟨options, registry⟩ before (a ++ b) ≠
      shownText ⟨options, registry⟩ before a ++
        shownText ⟨options, registry⟩ (before ++ a.toList) b) :
    Document.ofEvents? source [] options
        ([⟨.enter .paragraph, ⟨i, k⟩⟩] ++ ⟨.text a, ⟨i, j⟩⟩ :: ⟨.text b, ⟨j, k⟩⟩ ::
          [⟨.leave .paragraph, ⟨i, k⟩⟩]) registry ≠
      Document.ofEvents? source [] options
        ([⟨.enter .paragraph, ⟨i, k⟩⟩] ++ ⟨.text (a ++ b), ⟨i, k⟩⟩ ::
          [⟨.leave .paragraph, ⟨i, k⟩⟩]) registry := by
  obtain ⟨hraw, hbefore⟩ := h.slice_first
  obtain ⟨hraw', hbefore'⟩ := h.slice_second
  have hboth : sliceChars source.toList i k = some (a ++ b).toList := by
    simpa using h.slice_both
  have fits : (ByteRange.mk i k).Fits source.toList := .of_sliceChars hboth
  have texts := (appends_text ⟨options, registry⟩ hraw hbefore).append
    (appends_text ⟨options, registry⟩ hraw' hbefore')
  have text := appends_text ⟨options, registry⟩ hboth hbefore
  obtain ⟨built, hbuilt, hagrees⟩ :=
    (Builds.paragraph texts (Nat.zero_le _) fits fits).ofEvents? (Nat.zero_le _)
  obtain ⟨built', hbuilt', hagrees'⟩ :=
    (Builds.paragraph text (Nat.zero_le _) fits fits).ofEvents? (Nat.zero_le _)
  intro heq
  obtain rfl : built = built' := by
    simpa using hbuilt.symm.trans (heq.trans hbuilt')
  exact hne (hagrees'.literal_inj hagrees)

/-- **Two texts in a row build the same documents as one exactly if emoji are left alone or no
shortcode and no smiley is cut apart between them**, whatever the emoji are, if the smileys are
known and no emoji ends like what stands for it. -/
theorem ofEvents?_joinText_iff (source : String) (options : ParseOptions)
    (hknown : registry.KnowsSmileys) (hends : registry.ChangesEnds)
    (ha : sliceBytes source i j = some a) (hb : sliceBytes source j k = some b) :
    (∀ definitions before after,
      Document.ofEvents? source definitions options
          (before ++ ⟨.text a, ⟨i, j⟩⟩ :: ⟨.text b, ⟨j, k⟩⟩ :: after) registry =
        Document.ofEvents? source definitions options
          (before ++ ⟨.text (a ++ b), ⟨i, k⟩⟩ :: after) registry) ↔
      options.emoji = false ∨
        ¬CutsEmoji registry (boundaryAfter true (InlineTree.sourceTo source.toList i))
          a.toList b.toList := by
  obtain ⟨start, rest, h⟩ := exists_adjacent ha hb
  have start_eq : InlineTree.sourceTo source.toList i = start := by
    rw [InlineTree.sourceTo, h.slice_first.2, Option.getD_some]
  have shown := @shownText_append_iff ⟨options, registry⟩ hknown hends start a b
  rw [start_eq, ← shown]
  constructor
  · intro hall
    by_contra hne
    exact exists_ofEvents?_ne h hne (hall [] _ _)
  · intro hshown definitions before after
    unfold Document.ofEvents?
    rw [run_append, run_append]
    cases hrun : (Builder.start source.toList definitions ⟨options, registry⟩).run before with
    | none => rfl
    | some b₁ =>
      -- The builder still reads the source it was started with.
      have reading := reading_run hrun
      have source_eq : b₁.source = source.toList := congrArg Prod.fst reading
      have options_eq : b₁.options = ⟨options, registry⟩ := congrArg Prod.snd reading
      have joined := addText_addText (source_eq ▸ h) (options_eq ▸ hshown)
      have steps : b₁.run (⟨.text a, ⟨i, j⟩⟩ :: ⟨.text b, ⟨j, k⟩⟩ :: after) =
          b₁.run (⟨.text (a ++ b), ⟨i, k⟩⟩ :: after) := by
        rw [run_cons, run_cons]
        show (b₁.addText a ⟨i, j⟩).bind (fun b₂ => (b₂.addText b ⟨j, k⟩).bind (·.run after)) =
          (b₁.addText (a ++ b) ⟨i, k⟩).bind (·.run after)
        rw [← Option.bind_assoc, joined]
      rw [Option.bind_some, Option.bind_some, steps]

end JoinText

theorem ofEvents?_joinText_iff_heart :
    knownEmoji.KnowsSmileys ∧ knownEmoji.ChangesEnds ∧
    sliceBytes "I <3 it" 2 3 = some "<" ∧ sliceBytes "I <3 it" 3 7 = some "3 it" ∧
    ¬∀ definitions before after,
      Document.ofEvents? "I <3 it" definitions {}
          (before ++ ⟨.text "<", ⟨2, 3⟩⟩ :: ⟨.text "3 it", ⟨3, 7⟩⟩ :: after) knownEmoji =
        Document.ofEvents? "I <3 it" definitions {}
          (before ++ ⟨.text ("<" ++ "3 it"), ⟨2, 7⟩⟩ :: after) knownEmoji := by
  refine ⟨knowsSmileys_knownEmoji, changesEnds_knownEmoji, by decide, by decide, ?_⟩
  rw [ofEvents?_joinText_iff "I <3 it" {} knowsSmileys_knownEmoji changesEnds_knownEmoji
    (by decide) (by decide)]
  decide +kernel

/-- The events a reader reports for this text keep the heart apart; one event would replace it. -/
theorem ofEvents?_heart_ne :
    Document.ofEvents? "I <3 it" [] {}
        ([⟨.enter .paragraph, ⟨0, 7⟩⟩, ⟨.text "I ", ⟨0, 2⟩⟩] ++
          ⟨.text "<", ⟨2, 3⟩⟩ :: ⟨.text "3 it", ⟨3, 7⟩⟩ :: [⟨.leave .paragraph, ⟨0, 7⟩⟩])
        knownEmoji ≠
      Document.ofEvents? "I <3 it" [] {}
        ([⟨.enter .paragraph, ⟨0, 7⟩⟩, ⟨.text "I ", ⟨0, 2⟩⟩] ++
          ⟨.text ("<" ++ "3 it"), ⟨2, 7⟩⟩ :: [⟨.leave .paragraph, ⟨0, 7⟩⟩])
        knownEmoji := by
  have split : Document.ofEvents? "I <3 it" [] {}
      ([⟨.enter .paragraph, ⟨0, 7⟩⟩, ⟨.text "I ", ⟨0, 2⟩⟩] ++
        ⟨.text "<", ⟨2, 3⟩⟩ :: ⟨.text "3 it", ⟨3, 7⟩⟩ :: [⟨.leave .paragraph, ⟨0, 7⟩⟩])
      knownEmoji =
      some ⟨[.paragraph [.literal "I <3 it"] .tracked]⟩ := by cbv
  have joined : Document.ofEvents? "I <3 it" [] {}
      ([⟨.enter .paragraph, ⟨0, 7⟩⟩, ⟨.text "I ", ⟨0, 2⟩⟩] ++
        ⟨.text ("<" ++ "3 it"), ⟨2, 7⟩⟩ :: [⟨.leave .paragraph, ⟨0, 7⟩⟩])
      knownEmoji =
      some ⟨[.paragraph [.literal "I ❤️ it"] .tracked]⟩ := by cbv
  rw [split, joined]
  simp

end Document

end MarkdownSpans
