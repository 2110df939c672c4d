import MarkdownSpans.Proofs.Tree.LayoutRun
import MarkdownSpans.Proofs.Tree.Translation

/-!
# Building bullet lists

The document of a bullet list with one item on each line has one item for each line. The cursor
stays at the marker of an item without text, since only content moves it on. So if the last item has
no text, its line stands behind the cursor at the end of the source and is taken for a blank line
(`Document.ofEvents?_bulletSource`).
-/

namespace MarkdownSpans

open Line (Chained joined size)

/-! ### Sources -/

/-- The line of an item: its text behind the marker, or the marker alone. -/
def bulletLine (text : String) : Line := ⟨if text = "" then "-" else "- " ++ text, .lf⟩

/-- The source of a bullet list whose items have these texts. -/
def bulletSource (texts : List String) : String := String.ofList (joined (texts.map bulletLine))

/-- The events of an item that starts at a place. -/
def bulletItemEvents (start : Nat) (text : String) : List RangedEvent :=
  let range : ByteRange := ⟨start, start + byteLength (bulletLine text).chars⟩
  ⟨.enter .item, range⟩ ::
    ((if text = "" then [] else [Segment.textEvent (start + 2) text]) ++ [⟨.leave .item, range⟩])

/-- The events of a bullet list. -/
def bulletEvents (texts : List String) : List RangedEvent :=
  let range : ByteRange := ⟨0, size (texts.map bulletLine)⟩
  ⟨.enter (.list none), range⟩ ::
    (spread (fun text => byteLength (bulletLine text).chars) bulletItemEvents 0 texts ++
      [⟨.leave .list, range⟩])

/-- The item that is built from a line. -/
def bulletItem (text : String) : ListItem :=
  .mk (if text = "" then [] else [.paragraph [.literal text, .lineBreak .lf false] .tracked])
    .tracked

theorem chained_bulletLines {texts : List String} (h : ∀ text ∈ texts, Unbroken text.toList) :
    Chained (texts.map bulletLine) := by
  refine .of_lf fun line hline => ?_
  obtain ⟨text, htext, rfl⟩ := List.mem_map.1 hline
  refine ⟨?_, rfl⟩
  unfold bulletLine
  split
  · decide
  · rw [String.toList_append]
    exact Unbroken.append (by decide) (h text htext)

theorem chars_bulletLine (text : String) : ∃ rest, (bulletLine text).chars = '-' :: rest := by
  unfold bulletLine Line.chars
  split
  · exact ⟨['\n'], rfl⟩
  · exact ⟨' ' :: (text.toList ++ ['\n']), by simp [Newline.chars]⟩

namespace Builder

variable {all a b : List Line} {options : BuildOptions} {containers : List Container}
  {text : String}

/-- The characters before the text of an item. -/
def bulletLead (a : List Line) : List Char := joined a ++ ['-', ' ']

theorem byteLength_bulletLead (a : List Line) : byteLength (bulletLead a) = size a + 2 := by
  rw [bulletLead, byteLength_append]
  rfl

theorem joined_bulletText (hall : all = a ++ bulletLine text :: b) (hne : text ≠ "") :
    joined all = bulletLead a ++ (text.toList ++ (Newline.lf.chars ++ joined b)) := by
  rw [hall, Line.joined_append, Line.joined_cons, bulletLine, if_neg hne]
  simp [Line.chars, bulletLead]

/-- A block behind the marker begins on the line of the item, with no lines before it. -/
theorem beginBlock_bulletText (h : Chained all) (hall : all = a ++ bulletLine text :: b)
    (hne : text ≠ "") :
    (still (joined all) options containers none (size a)).beginBlock (size a + 2) =
      some (none, still (joined all) options containers none (size a)) := by
  have lineStart : lineStart? (joined all) (size a + 2) = some (size a) := by
    rw [joined_bulletText hall hne, ← byteLength_bulletLead a, bulletLead, List.append_assoc]
    exact lineStart?_append ((hall ▸ h).endsLine (by simp)) (by decide) _
  have position : IsPosition (joined all) (size a) :=
    ⟨joined a, joined (bulletLine text :: b), by rw [hall, Line.joined_append], rfl⟩
  rw [beginBlock_of_gap lineStart (position.gapFrom?_of_le (Nat.le_refl _) _), Nat.max_self]
  rfl

/-- A block behind the marker ends with the line of the item. -/
theorem blockEnd?_bulletText (hall : all = a ++ bulletLine text :: b)
    (htext : Unbroken text.toList) (hne : text ≠ "") {reached left : List Char}
    (hreached : Newline.lf.chars = reached ++ left) :
    blockEnd? (joined all) ⟨size a + 2, size a + 2 + byteLength (text.toList ++ reached)⟩ =
      some ⟨size a + 2 + byteLength text.toList, .lf, size (a ++ [bulletLine text])⟩ := by
  have last : ∀ c ∈ text.toList.getLast?, isLineEnd c = false :=
    fun c hc => htext c (List.mem_of_getLast? hc)
  have next : byteLength (bulletLead a ++ (text.toList ++ Newline.lf.chars)) =
      size (a ++ [bulletLine text]) := by
    simp [bulletLead, bulletLine, if_neg hne, Line.chars, size]
  have ends : Newline.lf.Ends (joined b) := ⟨by simp, by simp⟩
  have ending := blockEnd?_append (bulletLead a) last ends hreached
  rwa [← joined_bulletText hall hne, next, byteLength_append (bulletLead a),
    byteLength_append (bulletLead a), byteLength_bulletLead] at ending

/-- The text of an item opens an implicit paragraph. -/
theorem step_bulletText (h : Chained all) (hall : all = a ++ bulletLine text :: b)
    (hne : text ≠ "") (hemoji : options.emoji = false) :
    (still (joined all) options containers none (size a)).step
        (Segment.textEvent (size a + 2) text) =
      some (still (joined all) options containers
        (some (.holding (.paragraph true) (size a + 2) (size a + 2 + byteLength text.toList) none
          [.literal text])) (size a)) := by
  have source := joined_bulletText hall hne
  have place := byteLength_bulletLead a
  let range : ByteRange := ⟨size a + 2, size a + 2 + byteLength text.toList⟩
  have begun : (still (joined all) options containers none (size a)).beginLeaf (.paragraph true)
      range.start = some (still (joined all) options containers
        (some (.holding (.paragraph true) (size a + 2) (size a + 2) none [])) (size a)) := by
    rw [beginLeaf, beginBlock_bulletText h hall hne]
    rfl
  have opened : (still (joined all) options containers none (size a)).step
      (Segment.textEvent (size a + 2) text) =
      (still (joined all) options containers
        (some (.holding (.paragraph true) (size a + 2) (size a + 2) none [])) (size a)).step
          (Segment.textEvent (size a + 2) text) := by
    show addText text ⟨size a + 2, size a + 2 + byteLength text.toList⟩
      (still (joined all) options containers none (size a)) = _
    exact addText_of_beginLeaf rfl begun text
  rw [opened, step_textEvent rfl rfl hemoji source place.symm (Nat.le_refl _)]
  rfl

/-- The end of an item closes the paragraph of its text, behind the line. -/
theorem closeImplicit_bulletText (hall : all = a ++ bulletLine text :: b)
    (htext : Unbroken text.toList) (hne : text ≠ "") :
    (still (joined all) options containers
        (some (.holding (.paragraph true) (size a + 2) (size a + 2 + byteLength text.toList) none
          [.literal text])) (size a)).closeImplicit =
      some (still (joined all) options
        (onTop (.paragraph [.literal text, .lineBreak .lf false] .tracked) containers) none
        (size (a ++ [bulletLine text]))) := by
  have nothing : Newline.lf.chars = [] ++ Newline.lf.chars := rfl
  have ending := blockEnd?_bulletText hall htext hne nothing
  rw [List.append_nil] at ending
  have closed := closeParagraph_holding (b := still (joined all) options containers
    (some (.holding (.paragraph true) (size a + 2) (size a + 2 + byteLength text.toList) none
      [.literal text])) (size a)) rfl (Nat.le_refl _) ending
  refine closed.trans ?_
  cases containers <;> rfl

section Items

variable {lines : Option (List Line)} {style : ListStyle} {rest : List Container}

/-- Where the cursor is behind an item: at the marker still, if no content moved it on. -/
def behindItem (a : List Line) (text : String) : Nat :=
  if text = "" then size a else size (a ++ [bulletLine text])

/-- An item is built from its line. -/
theorem run_bulletItem (h : Chained all) (hall : all = a ++ bulletLine text :: b)
    (htext : Unbroken text.toList) (hemoji : options.emoji = false) (items : List ListItem)
    (cursor : Nat) :
    (still (joined all) options (openList lines style items :: rest) none cursor).run
        (bulletItemEvents (size a) text) =
      some (still (joined all) options (openList lines style (bulletItem text :: items) :: rest)
        none (behindItem a text)) := by
  rw [bulletItemEvents, run_cons]
  show ((still (joined all) options (openItem [] :: openList lines style items :: rest) none
    (size a)).run _) = _
  by_cases hne : text = ""
  · subst hne
    rfl
  · rw [if_neg hne, List.singleton_append, run_cons, step_bulletText h hall hne hemoji,
      Option.bind_some, run_cons]
    show (leaveItem _ _).bind _ = _
    rw [leaveItem_of_closeImplicit (closeImplicit_bulletText hall htext hne), behindItem,
      if_neg hne, bulletItem, if_neg hne]
    rfl

/-- One item is built from each line. -/
theorem run_bulletItems {texts : List String} (h : Chained all)
    (hall : all = a ++ (texts.map bulletLine ++ b)) (htexts : ∀ text ∈ texts, Unbroken text.toList)
    (hemoji : options.emoji = false) (items : List ListItem) (cursor : Nat) :
    ∃ cursor', (still (joined all) options (openList lines style items :: rest) none cursor).run
        (spread (fun text => byteLength (bulletLine text).chars) bulletItemEvents (size a) texts) =
      some (still (joined all) options
        (openList lines style ((texts.map bulletItem).reverse ++ items) :: rest) none cursor') := by
  induction texts generalizing a items cursor with
  | nil => exact ⟨cursor, rfl⟩
  | cons text more ih =>
    obtain ⟨htext, hmore⟩ := List.forall_mem_cons.1 htexts
    have next : size a + byteLength (bulletLine text).chars = size (a ++ [bulletLine text]) := by
      simp [size]
    obtain ⟨cursor', hrun⟩ := ih (a := a ++ [bulletLine text]) (by simpa using hall) hmore
      (bulletItem text :: items) (behindItem a text)
    refine ⟨cursor', ?_⟩
    rw [spread, run_append, run_bulletItem h hall htext hemoji, Option.bind_some, next, hrun]
    simp

end Items

/-- The lines behind the cursor at the end: that of a last item without text is among them. -/
theorem gapFrom?_bulletLine {init : List Line} {last : String}
    (h : Chained (init ++ [bulletLine last])) :
    gapFrom? (joined (init ++ [bulletLine last])) false (behindItem init last)
        (size (init ++ [bulletLine last])) =
      some (if last = "" then [⟨"-", .lf⟩] else []) := by
  by_cases hempty : last = ""
  · subst hempty
    have found := gapFrom?_joined (a := init) (g := [bulletLine ""]) (b := []) (by simpa using h)
    simpa [behindItem, bulletLine] using found
  · have found := gapFrom?_joined (a := init ++ [bulletLine last]) (g := []) (b := [])
      (by simpa using h)
    simpa [behindItem, hempty] using found

/-- A list begins at its first marker. -/
theorem step_enterList {rest : List Char} (hrest : joined all = '-' :: rest)
    (hdepth : 2 ≤ options.maxDepth) (stop : Nat) :
    (still (joined all) options [{ kind := .document }] none 0).step
        ⟨.enter (.list none), ⟨0, stop⟩⟩ =
      some (still (joined all) options [openList none {} [], { kind := .document }] none 0) := by
  have lineStart : lineStart? (joined all) 0 = some 0 := by
    simp [lineStart?, takeBytes]
  have room : (still (joined all) options [{ kind := .document }] none 0).fits 2 :=
    fits_still { kind := .document } none 0 (by simpa using hdepth)
  show (still (joined all) options _ none 0).enterList none ⟨0, stop⟩ = _
  rw [enterList, if_pos room,
    beginBlock_of_gap lineStart (IsPosition.gapFrom?_of_le (.zero _) (Nat.le_refl _) _)]
  show (dropBytes (joined all) 0).bind _ = _
  rw [hrest]
  rfl

end Builder

open Builder in
/-- **The document of a bullet list.** It has one item for each line; if the last item has no text,
the line of that item is a line behind the list too. -/
theorem Document.ofEvents?_bulletSource {init : List String} {last : String}
    (htexts : ∀ text ∈ init ++ [last], Unbroken text.toList) {options : ParseOptions}
    (hemoji : options.emoji = false) (hdepth : 2 ≤ options.maxDepth) (registry : EmojiRegistry) :
    Document.ofEvents? (bulletSource (init ++ [last])) [] options
        (bulletEvents (init ++ [last])) registry =
      some ⟨[.list {} ((init ++ [last]).map bulletItem)
        { linesAfter := some (if last = "" then [⟨"-", .lf⟩] else []) }]⟩ := by
  obtain ⟨hinit, hlast⟩ := List.forall_mem_append.1 htexts
  obtain ⟨all, hall⟩ : ∃ all, all = (init ++ [last]).map bulletLine := ⟨_, rfl⟩
  have chained : Chained all := hall ▸ chained_bulletLines htexts
  have cut : all = init.map bulletLine ++ [bulletLine last] := by simp [hall]
  obtain ⟨rest, hrest⟩ : ∃ rest, joined all = '-' :: rest := by
    obtain ⟨first, more, hmore⟩ := List.exists_cons_of_ne_nil (l := init ++ [last]) (by simp)
    obtain ⟨chars, hchars⟩ := chars_bulletLine first
    exact ⟨chars ++ joined (more.map bulletLine), by simp [hall, hmore, hchars]⟩
  obtain ⟨cursor, hrun⟩ := @run_bulletItems all [] [bulletLine last] ⟨options, registry⟩ none {}
    [{ kind := .document }] init chained cut hinit hemoji [] 0
  have width : (init.map fun text => byteLength (bulletLine text).chars).sum =
      size (init.map bulletLine) := by
    rw [← Line.sum_byteLength_chars, List.map_map]
    rfl
  rw [Line.size_nil] at hrun
  have built : (still (joined all) ⟨options, registry⟩ [{ kind := .document }] none 0).run
        (bulletEvents (init ++ [last])) =
      some (still (joined all) ⟨options, registry⟩
        [{ kind := .document
           reversed := [.list {} ((init ++ [last]).map bulletItem) .tracked] }] none
        (behindItem (init.map bulletLine) last)) := by
    have reversed : (bulletItem last :: ((init.map bulletItem).reverse ++ [])).reverse =
        (init ++ [last]).map bulletItem := by
      simp
    rw [bulletEvents, ← hall, run_cons, step_enterList hrest hdepth, Option.bind_some, run_append,
      spread_append, run_append, hrun, Option.bind_some, Nat.zero_add, width, spread, spread,
      List.append_nil (bulletItemEvents _ _),
      run_bulletItem chained cut (hlast last (.head _)) hemoji, Option.bind_some, ← reversed]
    rfl
  have gap := cut ▸ gapFrom?_bulletLine (cut ▸ chained)
  have source : (bulletSource (init ++ [last])).toList = joined all := by
    rw [bulletSource, hall, String.toList_ofList]
  rw [ofEvents?_of_run source built gap]
  split <;> rfl

end MarkdownSpans
