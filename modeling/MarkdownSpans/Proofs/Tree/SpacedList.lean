import MarkdownSpans.Proofs.Tree.BulletRun

/-!
# Building lists with empty lines between their items

In a source with an empty line between every two items of a bullet list each item is a paragraph or
a heading of one line. A list is marked loose when a paragraph begins in one of its items, and by
nothing else: the empty lines themselves are passed over. So the list of such a source is loose
exactly if some item is a paragraph (`Document.ofEvents?_spacedSource`).
-/

namespace MarkdownSpans

open Line (Chained joined size)

/-- An item with one line: a heading of the first level or a paragraph. -/
structure SpacedItem where
  isHeading : Bool
  text : String
  deriving DecidableEq, Repr

namespace SpacedItem

/-- What stands before the text of the item. -/
def sign (i : SpacedItem) : String := if i.isHeading then "# " else ""

/-- What stands behind the bullet. -/
def content (i : SpacedItem) : String := i.sign ++ i.text

/-- The line of the item. -/
def line (i : SpacedItem) : Line := ⟨"- " ++ i.content, .lf⟩

/-- The text of the item is a piece of a line. -/
structure Plain (i : SpacedItem) : Prop where
  unbroken : Unbroken i.text.toList
  ne : i.text ≠ ""

/-- The block in the item. -/
def block (i : SpacedItem) : Block :=
  if i.isHeading then .heading 1 [.literal i.text] .lf .tracked
  else .paragraph [.literal i.text, .lineBreak .lf false] .tracked

/-- The item that is built. -/
def built (i : SpacedItem) : ListItem := .mk [i.block] .tracked

section Events

variable (whole : Nat → Bool) (start : Nat)

/-- The range of the block in an item that starts at a place. It reaches over the terminator if
`whole` says so of the place. -/
def range (i : SpacedItem) : ByteRange :=
  ⟨start + 2,
    start + 2 + byteLength (i.content.toList ++ if whole start then Newline.lf.chars else [])⟩

/-- The events of the block in an item that starts at a place. -/
def blockEvents (i : SpacedItem) : List RangedEvent :=
  [⟨.enter (if i.isHeading then .heading 1 else .paragraph), i.range whole start⟩,
    Segment.textEvent (start + 2 + byteLength i.sign.toList) i.text,
    ⟨.leave (if i.isHeading then .heading else .paragraph), i.range whole start⟩]

/-- The events of an item that starts at a place. -/
def events (i : SpacedItem) : List RangedEvent :=
  let outer : ByteRange := ⟨start, start + byteLength i.line.chars⟩
  ⟨.enter .item, outer⟩ :: (i.blockEvents whole start ++ [⟨.leave .item, outer⟩])

end Events

namespace Plain

variable {i : SpacedItem}

theorem content_ne (h : i.Plain) : i.content ≠ "" := fun hempty =>
  h.ne (String.append_eq_empty_iff.1 hempty).2

theorem line_eq (h : i.Plain) : i.line = bulletLine i.content := by
  rw [bulletLine, if_neg h.content_ne, line]

theorem unbroken_content (h : i.Plain) : Unbroken i.content.toList := by
  rw [content, String.toList_append]
  refine .append ?_ h.unbroken
  unfold sign
  split <;> decide

end Plain

end SpacedItem

/-- The lines of a list with an empty line between every two items. -/
def spacedLines : List SpacedItem → List Line
  | [] => []
  | [i] => [i.line]
  | i :: rest => i.line :: .blank .lf :: spacedLines rest

/-- The source of such a list. -/
def spacedSource (items : List SpacedItem) : String := String.ofList (joined (spacedLines items))

/-- The events of such a list. -/
def spacedEvents (whole : Nat → Bool) (items : List SpacedItem) : List RangedEvent :=
  let range : ByteRange := ⟨0, size (spacedLines items)⟩
  ⟨.enter (.list none), range⟩ ::
    (spread (fun i => byteLength i.line.chars + 1) (SpacedItem.events whole) 0 items ++
      [⟨.leave .list, range⟩])

theorem SpacedItem.Plain.line_of_lf {i : SpacedItem} (h : i.Plain) :
    Unbroken i.line.text.toList ∧ i.line.newline = .lf := by
  refine ⟨?_, rfl⟩
  show Unbroken ("- " ++ i.content).toList
  rw [String.toList_append]
  exact .append (by decide) h.unbroken_content

theorem chained_spacedLines {items : List SpacedItem} (h : ∀ i ∈ items, i.Plain) :
    Chained (spacedLines items) := by
  refine .of_lf ?_
  induction items using spacedLines.induct with
  | case1 => nofun
  | case2 i => simpa [spacedLines] using (h i (.head _)).line_of_lf
  | case3 i rest hrest ih =>
    obtain ⟨hi, hrest'⟩ := List.forall_mem_cons.1 h
    rw [spacedLines.eq_3 i rest hrest]
    exact List.forall_mem_cons.2 ⟨hi.line_of_lf,
      List.forall_mem_cons.2 ⟨⟨.nil, rfl⟩, ih hrest'⟩⟩

namespace Builder

variable {all a b : List Line} {options : BuildOptions} {i : SpacedItem} {whole : Nat → Bool}
  {lines : Option (List Line)} {style : ListStyle} {rest : List Container}

/-- The block of an item ends with the line of the item. -/
theorem blockEnd?_spacedRange (hall : all = a ++ bulletLine i.content :: b) (hi : i.Plain) :
    blockEnd? (joined all) (i.range whole (size a)) =
      some ⟨size a + 2 + byteLength i.content.toList, .lf,
        size (a ++ [bulletLine i.content])⟩ := by
  obtain ⟨left, hleft⟩ : ∃ left, Newline.lf.chars =
      (if whole (size a) then Newline.lf.chars else []) ++ left := by
    split
    · exact ⟨[], rfl⟩
    · exact ⟨_, rfl⟩
  exact blockEnd?_bulletText hall hi.unbroken_content hi.content_ne hleft

/-- The text of an item goes into the leaf of its block, whatever the block is. -/
theorem step_spacedText (hall : all = a ++ bulletLine i.content :: b) (hi : i.Plain)
    (hemoji : options.emoji = false) {kind : LeafKind} (hkind : kind.holdsInlines)
    (containers : List Container) :
    (still (joined all) options containers
        (some (.holding kind (size a + 2) (size a + 2) none [])) (size a)).step
      (Segment.textEvent (size a + 2 + byteLength i.sign.toList) i.text) =
    some (still (joined all) options containers
      (some (.holding kind (size a + 2)
        (size a + 2 + byteLength i.sign.toList + byteLength i.text.toList) none
        [.literal i.text])) (size a)) := by
  have source : joined all = (bulletLead a ++ i.sign.toList) ++
      (i.text.toList ++ (Newline.lf.chars ++ joined b)) := by
    rw [joined_bulletText hall hi.content_ne, SpacedItem.content, String.toList_append]
    simp
  have place : size a + 2 + byteLength i.sign.toList =
      byteLength (bulletLead a ++ i.sign.toList) := by
    rw [byteLength_append, byteLength_bulletLead]
  rw [step_textEvent rfl hkind hemoji source place (Nat.le_add_right _ _)]
  rfl

section Leaf

variable {text : String}

/-- A heading in an item is built from the line of the item. -/
theorem run_spacedHeading (h : Chained all)
    (hall : all = a ++ bulletLine (SpacedItem.content ⟨true, text⟩) :: b)
    (hi : SpacedItem.Plain ⟨true, text⟩) (hemoji : options.emoji = false)
    (containers : List Container) :
    (still (joined all) options containers none (size a)).run
        (SpacedItem.blockEvents whole (size a) ⟨true, text⟩) =
      some (still (joined all) options (onTop (.heading 1 [.literal text] .lf .tracked) containers)
        none (size (a ++ [bulletLine (SpacedItem.content ⟨true, text⟩)]))) := by
  have begin : (still (joined all) options containers none (size a)).beginBlock (size a + 2) = _ :=
    beginBlock_bulletText h hall hi.content_ne
  have ending : blockEnd? (joined all) (SpacedItem.range whole (size a) ⟨true, text⟩) = _ :=
    blockEnd?_spacedRange hall hi
  have entered : (still (joined all) options containers none (size a)).step
      ⟨.enter (.heading 1), SpacedItem.range whole (size a) ⟨true, text⟩⟩ =
      some (still (joined all) options containers
        (some (.holding (.heading 1) (size a + 2) (size a + 2) none [])) (size a)) := by
    show ((still _ _ _ _ _).beginBlock (size a + 2)).bind _ = _
    rw [begin]
    rfl
  rw [SpacedItem.blockEvents, run_cons, if_pos rfl, entered, Option.bind_some, run_cons,
    step_spacedText hall hi hemoji rfl, Option.bind_some]
  show ((blockEnd? (joined all) _).bind _).bind _ = _
  rw [ending]
  cases containers <;> rfl

/-- A paragraph in an item is built from the line of the item, and marks the list loose. -/
theorem run_spacedParagraph (h : Chained all)
    (hall : all = a ++ bulletLine (SpacedItem.content ⟨false, text⟩) :: b)
    (hi : SpacedItem.Plain ⟨false, text⟩) (hemoji : options.emoji = false)
    (containers : List Container) :
    (still (joined all) options containers none (size a)).run
        (SpacedItem.blockEvents whole (size a) ⟨false, text⟩) =
      some (still (joined all) options
        (onTop (.paragraph [.literal text, .lineBreak .lf false] .tracked) (loosened containers))
        none (size (a ++ [bulletLine (SpacedItem.content ⟨false, text⟩)]))) := by
  have begin : (still (joined all) options containers none (size a)).beginBlock (size a + 2) = _ :=
    beginBlock_bulletText h hall hi.content_ne
  have ending : blockEnd? (joined all) (SpacedItem.range whole (size a) ⟨false, text⟩) = _ :=
    blockEnd?_spacedRange hall hi
  have entered : (still (joined all) options containers none (size a)).step
      ⟨.enter .paragraph, SpacedItem.range whole (size a) ⟨false, text⟩⟩ =
      some (still (joined all) options (loosened containers)
        (some (.holding (.paragraph false) (size a + 2) (size a + 2) none [])) (size a)) := by
    show ((still _ _ _ _ _).beginBlock (size a + 2)).bind _ = _
    rw [begin]
    show some ((still _ _ _ none _).markLoose.openLeaf _ _ _) = _
    rw [markLoose_still]
    rfl
  have reach : size a + 2 + byteLength (SpacedItem.sign ⟨false, text⟩).toList +
      byteLength text.toList ≤ (SpacedItem.range whole (size a) ⟨false, text⟩).stop := by
    simp [SpacedItem.range, SpacedItem.content]
    omega
  let leaf : Leaf := .holding (.paragraph false) (size a + 2)
    (size a + 2 + byteLength (SpacedItem.sign ⟨false, text⟩).toList + byteLength text.toList) none
    [.literal text]
  have closed : (still (joined all) options (loosened containers) (some leaf) (size a)).step
        ⟨.leave .paragraph, SpacedItem.range whole (size a) ⟨false, text⟩⟩ =
      some (still (joined all) options
        (onTop (.paragraph [.literal text, .lineBreak .lf false] .tracked) (loosened containers))
        none (size (a ++ [bulletLine (SpacedItem.content ⟨false, text⟩)]))) := by
    refine (closeParagraph_holding (b := still (joined all) options (loosened containers)
      (some leaf) (size a)) rfl reach ending).trans ?_
    cases loosened containers <;> rfl
  rw [SpacedItem.blockEvents, run_cons, if_neg nofun, entered, Option.bind_some, run_cons,
    step_spacedText hall hi hemoji rfl, Option.bind_some, run_cons, if_neg nofun, closed]
  rfl

end Leaf

/-- The block of an item is built from its line, and marks the list loose if it is a paragraph. -/
theorem run_spacedBlock (h : Chained all) (hall : all = a ++ i.line :: b) (hi : i.Plain)
    (hemoji : options.emoji = false) (containers : List Container) :
    (still (joined all) options containers none (size a)).run (i.blockEvents whole (size a)) =
      some (still (joined all) options
        (onTop i.block (if !i.isHeading then loosened containers else containers)) none
        (size (a ++ [i.line]))) := by
  rw [hi.line_eq] at hall ⊢
  obtain ⟨isHeading, text⟩ := i
  cases isHeading with
  | true => exact run_spacedHeading h hall hi hemoji containers
  | false => exact run_spacedParagraph h hall hi hemoji containers

/-- An item is built from its line, and marks the list loose if it is a paragraph. -/
theorem run_spacedItem (h : Chained all) (hall : all = a ++ i.line :: b) (hi : i.Plain)
    (hemoji : options.emoji = false) (items : List ListItem) (cursor : Nat) :
    (still (joined all) options (openList lines style items :: rest) none cursor).run
        (i.events whole (size a)) =
      some (still (joined all) options
        (openList lines (style.loosenIf (!i.isHeading)) (i.built :: items) :: rest) none
        (size (a ++ [i.line]))) := by
  rw [SpacedItem.events, run_cons]
  show ((still (joined all) options (openItem [] :: openList lines style items :: rest) none
    (size a)).run _) = _
  rw [run_append, run_spacedBlock h hall hi hemoji, onTop_openItem]
  rfl

/-- One item is built from each line that is not empty, and the list is marked loose if one of them
is a paragraph. -/
theorem run_spacedItems {spaced : List SpacedItem} (hne : spaced ≠ []) (h : Chained all)
    (hall : all = a ++ (spacedLines spaced ++ b)) (hspaced : ∀ i ∈ spaced, i.Plain)
    (hemoji : options.emoji = false) (items : List ListItem) (cursor : Nat) :
    (still (joined all) options (openList lines style items :: rest) none cursor).run
        (spread (fun i => byteLength i.line.chars + 1) (SpacedItem.events whole) (size a) spaced) =
      some (still (joined all) options
        (openList lines (style.loosenIf (spaced.any (!·.isHeading)))
          ((spaced.map SpacedItem.built).reverse ++ items) :: rest)
        none (size (a ++ spacedLines spaced))) := by
  induction spaced using spacedLines.induct generalizing a style items cursor with
  | case1 => exact absurd rfl hne
  | case2 i =>
    rw [spread, spread, List.append_nil,
      run_spacedItem h (by simpa [spacedLines] using hall) (hspaced i (.head _)) hemoji]
    simp [spacedLines]
  | case3 i rest hrest ih =>
    obtain ⟨hi, hrest'⟩ := List.forall_mem_cons.1 hspaced
    rw [spacedLines.eq_3 i rest hrest] at hall ⊢
    have next : size a + (byteLength i.line.chars + 1) =
        size (a ++ [i.line, .blank .lf]) := by
      have gap : byteLength (Line.blank .lf).chars = 1 := rfl
      simp only [size, Line.joined_append, Line.joined_cons, Line.joined_nil, List.append_nil,
        byteLength_append, gap]
    rw [spread, run_append, run_spacedItem h hall hi hemoji, Option.bind_some, next,
      ih hrest (by simpa using hall) hrest']
    simp

end Builder

open Builder in
/-- **The document of a list with empty lines between its items.** The list has one item for each
line that is not empty, and it is loose exactly if some item is a paragraph. -/
theorem Document.ofEvents?_spacedSource {items : List SpacedItem} (hne : items ≠ [])
    (hitems : ∀ i ∈ items, i.Plain) (whole : Nat → Bool) {options : ParseOptions}
    (hemoji : options.emoji = false) (hdepth : 2 ≤ options.maxDepth) (registry : EmojiRegistry) :
    Document.ofEvents? (spacedSource items) [] options (spacedEvents whole items) registry =
      some ⟨[.list { loose := items.any (!·.isHeading) } (items.map SpacedItem.built)
        .tracked]⟩ := by
  obtain ⟨all, hall⟩ : ∃ all, all = spacedLines items := ⟨_, rfl⟩
  have chained : Chained all := hall ▸ chained_spacedLines hitems
  obtain ⟨rest, hrest⟩ : ∃ rest, joined all = '-' :: rest := by
    obtain ⟨first, more, rfl⟩ := List.exists_cons_of_ne_nil hne
    obtain ⟨tail, htail⟩ : ∃ tail, spacedLines (first :: more) = first.line :: tail := by
      cases more with
      | nil => exact ⟨_, rfl⟩
      | cons second more => exact ⟨_, rfl⟩
    rw [hall, htail, Line.joined_cons]
    exact ⟨' ' :: first.content.toList ++ ['\n'] ++ joined tail,
      by simp [SpacedItem.line, Line.chars, Newline.chars]⟩
  have built : (still (joined all) ⟨options, registry⟩ [{ kind := .document }] none 0).run
        (spacedEvents whole items) =
      some (still (joined all) ⟨options, registry⟩
        [{ kind := .document
           reversed := [.list { loose := items.any (!·.isHeading) }
             (items.map SpacedItem.built) .tracked] }] none (size all)) := by
    have run : (still (joined all) ⟨options, registry⟩
          [openList none {} [], { kind := .document }] none 0).run
        (spread (fun i => byteLength i.line.chars + 1) (SpacedItem.events whole) 0 items) = _ :=
      @run_spacedItems all [] [] ⟨options, registry⟩ whole none {} [{ kind := .document }] items hne
        chained (by simpa using hall) hitems hemoji [] 0
    rw [spacedEvents, ← hall, run_cons, step_enterList hrest hdepth, Option.bind_some, run_append,
      run, Option.bind_some, ← hall]
    show some (still _ _ [{ kind := .document, reversed := [.list _
      ((items.map SpacedItem.built).reverse ++ []).reverse .tracked] }] _ _) = _
    rw [List.append_nil, List.reverse_reverse]
    rfl
  have gap : gapFrom? (joined all) false (size all) (size all) = some [] := by
    have found := gapFrom?_joined (a := all) (g := []) (b := []) (by simpa using chained)
    simpa using found
  have source : (spacedSource items).toList = joined all := by
    rw [spacedSource, hall, String.toList_ofList]
  rw [ofEvents?_of_run source built gap]
  rfl

end MarkdownSpans
