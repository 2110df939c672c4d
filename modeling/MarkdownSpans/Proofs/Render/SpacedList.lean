import MarkdownSpans.Proofs.Render.BulletLines
import MarkdownSpans.Proofs.Tree.SpacedList

/-!
# Rendering lists with empty lines between their items

Each item of such a list is rendered as its line again, and a loose list has an empty line between
every two of its items. So a list that is read from its source is rendered as the source exactly if
it is loose; a list of headings alone is not, and loses its empty lines
(`Pass.text_spacedSource_iff`).
-/

namespace MarkdownSpans

open Line (joined)

/-- The lines that are rendered of items: with empty lines between them if the list is loose. -/
def renderedLines (loose : Bool) (items : List SpacedItem) : List Line :=
  if loose then spacedLines items else items.map SpacedItem.line

theorem renderedLines_nil (loose : Bool) : renderedLines loose [] = [] := by
  cases loose <;> rfl

theorem renderedLines_cons (loose : Bool) (i : SpacedItem) (rest : List SpacedItem) :
    renderedLines loose (i :: rest) =
      i.line :: ((if loose && !rest.isEmpty then [.blank .lf] else []) ++
        renderedLines loose rest) := by
  cases loose with
  | false => rfl
  | true =>
    cases rest with
    | nil => rfl
    | cons second more => rfl

theorem chained_renderedLines (loose : Bool) {items : List SpacedItem}
    (h : ∀ i ∈ items, i.Plain) : Line.Chained (renderedLines loose items) := by
  unfold renderedLines
  split
  · exact chained_spacedLines h
  · refine .of_lf fun line hline => ?_
    obtain ⟨i, hi, rfl⟩ := List.mem_map.1 hline
    exact (h i hi).line_of_lf

theorem length_spacedLines {items : List SpacedItem} (h : items ≠ []) :
    (spacedLines items).length + 1 = 2 * items.length := by
  induction items using spacedLines.induct with
  | case1 => exact absurd rfl h
  | case2 i => rfl
  | case3 i rest hrest ih =>
    rw [spacedLines.eq_3 i rest hrest, List.length_cons, List.length_cons, List.length_cons]
    have := ih hrest
    omega

/-- Of two or more items the empty lines make a difference. -/
theorem renderedLines_eq_spacedLines_iff {loose : Bool} {items : List SpacedItem}
    (h : 2 ≤ items.length) : renderedLines loose items = spacedLines items ↔ loose = true := by
  cases loose with
  | true => exact iff_of_true rfl rfl
  | false =>
    refine iff_of_false (fun heq => ?_) nofun
    have spaced := length_spacedLines (List.length_pos_iff.1 (by omega) : items ≠ [])
    have plain : (renderedLines false items).length = items.length := List.length_map _
    rw [heq] at plain
    omega

namespace Program.Lays

variable {pass : Pass} {newline : Newline} {n : Nat} {last : Bool} {page : Page}

/-- A heading adds its line to the line that goes on. -/
theorem heading (hrules : pass.rules = .standard) {before : String}
    (hcurrent : page.current = some before) (level : Nat) (text : String) {terminator : Newline}
    (h : terminator.HasFeed) :
    Lays pass newline (n + 2)
      (.render (.block (.heading level [.literal text] terminator .tracked))) last page
      (page.writeLines [headingLine level text terminator]) := by
  let marks := String.ofList (List.replicate level '#')
  have content : ((page.write marks).write " ").write text =
      page.write (headingLine level text terminator).text := by
    rw [Page.write_of_some hcurrent, Page.write_of_some rfl, Page.write_of_some rfl,
      Page.write_of_some hcurrent]
    simp [headingLine, marks, String.append_assoc]
  rw [Page.writeLines_cons, Page.writeLines_nil, ← content]
  refine .render hrules rfl ?_
  exact .seq (.noLinesBefore rfl) <| .seq (.write marks) <| .seq (.writeChar ' ') <|
    .seq (.seq (.render hrules rfl (.write text)) .done) <| .seq (.writeLine h) <|
    .seq (.noLinesAfter rfl) .done

/-- The body of an item ends the line of the marker. -/
theorem spacedBody (hrules : pass.rules = .standard) (done : List Line) (i : SpacedItem) :
    Lays pass newline (n + 3) (.indent (.spaces 2) (.render (.item i.built))) last
      { done, current := some "- " } { done := done ++ [i.line] } := by
  let marked : Page := ⟨done, some "- ", [.spaces 2]⟩
  have hfeed : ∀ line ∈ [(⟨i.text, .lf⟩ : Line)], line.newline.HasFeed := by
    simp [Newline.HasFeed]
  have block : Lays pass newline (n + 2) (.render (.block i.block)) true marked
      ⟨done ++ [i.line], none, [.spaces 2]⟩ := by
    obtain ⟨isHeading, text⟩ := i
    cases isHeading with
    | true =>
      have laid : Lays pass newline (n + 2) _ true marked _ := heading hrules rfl 1 text (.inl rfl)
      rwa [headingLine, Page.writeLines_of_some rfl] at laid
    | false =>
      have laid : Lays pass newline (n + 2) _ true marked _ := paragraph hrules hfeed
      rwa [Page.writeLines_of_some rfl] at laid
  have body : Lays pass newline (n + 3) (.render (.item i.built)) last marked
      ⟨done ++ [i.line], none, [.spaces 2]⟩ :=
    .render hrules rfl (.seq (.noLinesBefore rfl) (.seq (.withLast block) .done))
  have settled : ({ done, current := some "- " } : Page).Settled := by simp [Page.Settled]
  have ended : (⟨done ++ [i.line], none, [.spaces 2]⟩ : Page).Settled := by simp [Page.Settled]
  exact indent settled body ended (List.cons_ne_nil _ _)

/-- Behind an item of a loose list stands an empty line, unless the item is the last one. -/
theorem spacedSeparator (loose isLast : Bool) (done : List Line) :
    Lays pass .lf n (.separator { loose } isLast) last { done }
      { done := done ++ if loose && !isLast then [.blank .lf] else [] } := by
  unfold Program.separator
  split
  · have ensured : Lays pass .lf n .ensureLine last { done } { done } :=
      ensureLine (.inl rfl) nofun
    exact ensured.seq (writeDefaultLine (.inl rfl))
  · rw [List.append_nil]
    exact .done

/-- An item is rendered as its line, with an empty line behind it where the list has one. -/
theorem spacedItem (hrules : pass.rules = .standard) (loose : Bool) (done : List Line) (index : Nat)
    (i : SpacedItem) (rest : List SpacedItem) {page : Page}
    (hrest : Lays pass .lf (n + 3)
      (.items { loose } (nextIndex { loose } index) (rest.map SpacedItem.built)) last
      { done := done ++ [i.line] ++ if loose && !rest.isEmpty then [.blank .lf] else [] } page) :
    Lays pass .lf (n + 3) (.items { loose } index ((i :: rest).map SpacedItem.built)) last { done }
      page := by
  have ensured : Lays pass .lf (n + 3) .ensureLine last { done } { done } :=
    ensureLine (.inl rfl) nofun
  have marker : Lays pass .lf (n + 3) (.marker { loose } index) last { done } _ :=
    itemMarker done index
  have isEmpty : (rest.map SpacedItem.built).isEmpty = rest.isEmpty := List.isEmpty_map
  rw [← isEmpty] at hrest
  exact ensured.seq <| marker.seq <| .seq (.spacedBody hrules done i) <|
    .seq (.withLast (.noLinesAfter rfl)) <| .seq (.spacedSeparator loose _ _) <|
    .seq hrest .done

/-- Items are rendered as their lines, with empty lines between them if the list is loose. -/
theorem spacedItems (hrules : pass.rules = .standard) (loose : Bool) (done : List Line)
    (index : Nat) (items : List SpacedItem) :
    Lays pass .lf (n + 3) (.items { loose } index (items.map SpacedItem.built)) last { done }
      { done := done ++ renderedLines loose items } := by
  induction items generalizing done index with
  | nil =>
    rw [renderedLines_nil, List.append_nil]
    exact .done
  | cons i rest ih =>
    have next := ih (done ++ [i.line] ++ if loose && !rest.isEmpty then [.blank .lf] else [])
      (nextIndex { loose } index)
    rw [renderedLines_cons]
    refine spacedItem hrules loose done index i rest ?_
    simpa using next

/-- A list is rendered as the lines of its items, with empty lines between them if it is loose. -/
theorem spacedList (hrules : pass.rules = .standard) (loose : Bool) (items : List SpacedItem) :
    Lays pass .lf (n + 4)
      (.render (.block (.list { loose } (items.map SpacedItem.built) .tracked))) last {}
      { done := renderedLines loose items } := by
  refine .render hrules rfl ?_
  exact .seq (.ensureLine (.inl rfl) nofun) <|
    .seq (.withCompact (.seq (.noLinesBefore rfl) (.spacedItems hrules loose [] _ items))) <|
    .seq (.noLinesAfter rfl) .done

end Program.Lays

namespace Pass

/-- **A list with empty lines between its items is loose, and is rendered as its source, exactly if
some item is a paragraph.** A list of headings alone is not loose, so that the empty lines between
them are left out. -/
theorem text_spacedSource_iff {items : List SpacedItem} (hlength : 2 ≤ items.length)
    (hitems : ∀ i ∈ items, i.Plain) (whole : Nat → Bool) {options : ParseOptions}
    (hemoji : options.emoji = false) (hroom : 2 ≤ options.maxDepth) (registry : EmojiRegistry)
    {pass : Pass} (hrules : pass.rules = .standard) (hnewline : pass.options.newline = .lf)
    (hdepth : 5 ≤ pass.options.maxDepth) :
    ∃ style trivia r,
      Document.ofEvents? (spacedSource items) [] options (spacedEvents whole items) registry =
        some ⟨[.list style (items.map SpacedItem.built) trivia]⟩ ∧
      (pass.run ⟨[.list style (items.map SpacedItem.built) trivia]⟩).result = .ok r ∧
      r.text = String.ofList (joined (renderedLines style.loose items)) ∧
      (style.loose = true ↔ ∃ i ∈ items, i.isHeading = false) ∧
      (r.text = spacedSource items ↔ ∃ i ∈ items, i.isHeading = false) := by
  let loose := items.any (!·.isHeading)
  have hloose : loose = true ↔ ∃ i ∈ items, i.isHeading = false := by simp [loose]
  have hne : items ≠ [] := List.length_pos_iff.1 (by omega)
  have laid : Program.Lays pass pass.options.newline 4
      (.render (.block (.list { loose } (items.map SpacedItem.built) .tracked))) true {}
      { done := renderedLines loose items } := by
    rw [hnewline]
    exact .spacedList hrules loose items
  obtain ⟨r, hresult, htext⟩ := exists_result_of_lays hrules laid hdepth
  rw [Page.text_of_none rfl] at htext
  refine ⟨{ loose }, .tracked, r,
    Document.ofEvents?_spacedSource hne hitems whole hemoji hroom registry, hresult, htext, hloose,
    ?_⟩
  rw [htext, spacedSource, String.ofList_inj,
    (chained_renderedLines loose hitems).joined_inj (chained_spacedLines hitems),
    renderedLines_eq_spacedLines_iff hlength, hloose]

theorem text_spacedSource_iff_mixed :
    2 ≤ [(⟨true, "a"⟩ : SpacedItem), ⟨false, "b"⟩, ⟨true, "c"⟩].length ∧
    (∀ i ∈ [(⟨true, "a"⟩ : SpacedItem), ⟨false, "b"⟩, ⟨true, "c"⟩], i.Plain) ∧
    ∃ style trivia r,
      Document.ofEvents? (spacedSource [⟨true, "a"⟩, ⟨false, "b"⟩, ⟨true, "c"⟩]) []
          { emoji := false }
          (spacedEvents (· ≠ 0) [⟨true, "a"⟩, ⟨false, "b"⟩, ⟨true, "c"⟩]) =
        some ⟨[.list style
          ([⟨true, "a"⟩, ⟨false, "b"⟩, ⟨true, "c"⟩].map SpacedItem.built) trivia]⟩ ∧
      (Pass.run { rules := .standard } ⟨[.list style
        ([⟨true, "a"⟩, ⟨false, "b"⟩, ⟨true, "c"⟩].map SpacedItem.built) trivia]⟩).result =
          .ok r ∧
      r.text = String.ofList
        (joined (renderedLines style.loose [⟨true, "a"⟩, ⟨false, "b"⟩, ⟨true, "c"⟩])) ∧
      (style.loose = true ↔
        ∃ i ∈ [(⟨true, "a"⟩ : SpacedItem), ⟨false, "b"⟩, ⟨true, "c"⟩], i.isHeading = false) ∧
      (r.text = spacedSource [⟨true, "a"⟩, ⟨false, "b"⟩, ⟨true, "c"⟩] ↔
        ∃ i ∈ [(⟨true, "a"⟩ : SpacedItem), ⟨false, "b"⟩, ⟨true, "c"⟩], i.isHeading = false) := by
  have plain : ∀ i ∈ [(⟨true, "a"⟩ : SpacedItem), ⟨false, "b"⟩, ⟨true, "c"⟩], i.Plain := by
    simp only [List.forall_mem_cons]
    exact ⟨⟨by decide, by decide⟩, ⟨by decide, by decide⟩, ⟨by decide, by decide⟩, nofun⟩
  exact ⟨by decide, plain,
    text_spacedSource_iff (by decide) plain (· ≠ 0) rfl (by decide) knownEmoji rfl rfl
      (by decide)⟩

/-- A list of two headings is not loose and loses the empty line between them. -/
theorem text_ne_of_headings :
    ¬∃ style items trivia r,
      Document.ofEvents? "- # a\n\n- # b\n" [] { emoji := false }
          [⟨.enter (.list none), ⟨0, 13⟩⟩, ⟨.enter .item, ⟨0, 6⟩⟩,
            ⟨.enter (.heading 1), ⟨2, 6⟩⟩, ⟨.text "a", ⟨4, 5⟩⟩, ⟨.leave .heading, ⟨2, 6⟩⟩,
            ⟨.leave .item, ⟨0, 6⟩⟩, ⟨.enter .item, ⟨7, 13⟩⟩,
            ⟨.enter (.heading 1), ⟨9, 13⟩⟩, ⟨.text "b", ⟨11, 12⟩⟩, ⟨.leave .heading, ⟨9, 13⟩⟩,
            ⟨.leave .item, ⟨7, 13⟩⟩, ⟨.leave .list, ⟨0, 13⟩⟩] =
        some ⟨[.list style items trivia]⟩ ∧
      (Pass.run { rules := .standard } ⟨[.list style items trivia]⟩).result = .ok r ∧
      style.loose = true ∧ r.text = "- # a\n\n- # b\n" := by
  rintro ⟨style, items, trivia, r, hdocument, -, hloose, -⟩
  have built : Document.ofEvents? "- # a\n\n- # b\n" [] { emoji := false }
      [⟨.enter (.list none), ⟨0, 13⟩⟩, ⟨.enter .item, ⟨0, 6⟩⟩,
        ⟨.enter (.heading 1), ⟨2, 6⟩⟩, ⟨.text "a", ⟨4, 5⟩⟩, ⟨.leave .heading, ⟨2, 6⟩⟩,
        ⟨.leave .item, ⟨0, 6⟩⟩, ⟨.enter .item, ⟨7, 13⟩⟩,
        ⟨.enter (.heading 1), ⟨9, 13⟩⟩, ⟨.text "b", ⟨11, 12⟩⟩, ⟨.leave .heading, ⟨9, 13⟩⟩,
        ⟨.leave .item, ⟨7, 13⟩⟩, ⟨.leave .list, ⟨0, 13⟩⟩] =
      some ⟨[.list {} [.mk [.heading 1 [.literal "a"] .lf .tracked] .tracked,
        .mk [.heading 1 [.literal "b"] .lf .tracked] .tracked] .tracked]⟩ := by cbv
  rw [built] at hdocument
  obtain ⟨rfl, -⟩ := Block.list.inj (List.cons.inj (Document.mk.inj (Option.some.inj hdocument))).1
  exact absurd hloose (by decide)

end Pass

end MarkdownSpans
