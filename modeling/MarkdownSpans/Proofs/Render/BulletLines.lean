import Mathlib
import MarkdownSpans.Proofs.Render.Laid
import MarkdownSpans.Proofs.Tree.BulletRun

/-!
# Rendering bullet lists

Each item of a bullet list is rendered as one line, its marker and its text (`Page.bullet`). So a
list that is read from its source gives one line for each item, unless the last item has no text:
its own line is then written once more behind its marker, as the line behind the list that it was
taken for (`Pass.lines_bulletSource`).
-/

namespace MarkdownSpans

/-! ### Items on pages -/

namespace Page

/-- The page behind an item. -/
def bullet (newline : Newline) (p : Page) (text : String) : Page :=
  if text = "" then { done := (p.ensureLine newline).done, current := some "- " }
  else { done := (p.ensureLine newline).done ++ [⟨"- " ++ text, .lf⟩] }

/-- The line of an item once it is finished. -/
def bulletWritten (newline : Newline) (text : String) : Line :=
  ⟨"- " ++ text, if text = "" then newline else .lf⟩

variable {newline : Newline} {p : Page} {text : String}

theorem inner_bullet : (p.bullet newline text).inner = [] := by
  unfold bullet
  split <;> rfl

theorem settled_bullet : (p.bullet newline text).Settled := by
  unfold bullet
  split
  · simp [Settled]
  · simp [Settled]

/-- An item ends the line before it and adds its own. -/
theorem done_ensureLine_bullet :
    ((p.bullet newline text).ensureLine newline).done =
      (p.ensureLine newline).done ++ [bulletWritten newline text] := by
  unfold bullet bulletWritten
  by_cases hempty : text = ""
  · rw [if_pos hempty, if_pos hempty, hempty]
    rfl
  · rw [if_neg hempty, if_neg hempty]
    rfl

/-- Items end the line before them and add their own. -/
theorem done_ensureLine_bullets (texts : List String) :
    ((texts.foldl (bullet newline) p).ensureLine newline).done =
      (p.ensureLine newline).done ++ texts.map (bulletWritten newline) := by
  induction texts generalizing p with
  | nil => simp
  | cons text rest ih => simp [ih, done_ensureLine_bullet]

/-- The page behind a bullet list that is read from its source. -/
theorem writeLines_bullets (newline : Newline) (init : List String) (last : String) :
    ((init ++ [last]).foldl (bullet newline) {}).writeLines
        (if last = "" then [⟨"-", .lf⟩] else []) =
      { done := init.map (bulletWritten newline) ++
          [⟨if last = "" then "- -" else "- " ++ last, .lf⟩] } := by
  have before : ((init.foldl (bullet newline) {}).ensureLine newline).done =
      init.map (bulletWritten newline) := done_ensureLine_bullets init
  rw [List.foldl_append, List.foldl_cons, List.foldl_nil, bullet, before]
  by_cases hempty : last = ""
  · rw [if_pos hempty, if_pos hempty, if_pos hempty, writeLines_of_some rfl]
    rfl
  · rw [if_neg hempty, if_neg hempty, if_neg hempty]
    rfl

theorem neat_bulletWritten (hnewline : newline.HasFeed) (htext : Unbroken text.toList) :
    (bulletWritten newline text).Neat := by
  refine ⟨?_, ?_⟩
  · show Unbroken ("- " ++ text).toList
    rw [String.toList_append]
    exact .append (by decide) htext
  · show (if text = "" then newline else .lf).HasFeed
    split
    · exact hnewline
    · exact .inl rfl

/-- All lines of a bullet list that is read from its source are neat. -/
theorem neat_bullets (hnewline : newline.HasFeed) {init : List String} {last : String}
    (htexts : ∀ text ∈ init ++ [last], Unbroken text.toList) :
    ({ done := init.map (bulletWritten newline) ++
        [⟨if last = "" then "- -" else "- " ++ last, .lf⟩] } : Page).Neat := by
  obtain ⟨hinit, hlast⟩ := List.forall_mem_append.1 htexts
  refine ⟨?_, nofun, nofun⟩
  intro line hline
  rcases List.mem_append.1 hline with hline | hline
  · obtain ⟨text, htext, rfl⟩ := List.mem_map.1 hline
    exact neat_bulletWritten hnewline (hinit text htext)
  · obtain rfl := List.mem_singleton.1 hline
    refine ⟨?_, .inl rfl⟩
    split
    · decide
    · rw [String.toList_append]
      exact .append (by decide) (hlast last (.head _))

theorem ensureLine_of_inner (hinner : p.inner = []) :
    p.ensureLine newline = { done := (p.ensureLine newline).done } := by
  obtain ⟨done, current, inner⟩ := p
  obtain rfl : inner = [] := hinner
  cases current <;> rfl

end Page

namespace Program.Lays

variable {pass : Pass} {newline : Newline} {n : Nat} {last : Bool} {page : Page}

theorem itemMarker (done : List Line) (index : Nat) :
    Lays pass newline n (.marker {} index) last { done } { done, current := some "- " } := by
  have begun : ({ done } : Page).write "-" = { done, current := some "-" } := by
    rw [Page.write_of_none rfl (by decide)]
    rfl
  have marker : (({ done } : Page).write "-").write " " = { done, current := some "- " } := by
    rw [begun, Page.write_of_some rfl]
    rfl
  exact marker ▸ .seq (.writeChar '-') (.writeChar ' ')

/-- The body of an item adds its text to the line of the marker. -/
theorem itemText (hrules : pass.rules = .standard) (text : String) :
    Lays pass newline (n + 3) (.render (.item (bulletItem text))) last page
      (page.writeLines (if text = "" then [] else [⟨text, .lf⟩])) := by
  refine .render hrules rfl (.seq (.noLinesBefore rfl) ?_)
  show Lays pass newline (n + 2) (.blocks (if text = "" then [] else _)) last page _
  by_cases hempty : text = ""
  · rw [if_pos hempty, if_pos hempty]
    exact .done
  · rw [if_neg hempty, if_neg hempty]
    have hfeed : ∀ line ∈ [(⟨text, .lf⟩ : Line)], line.newline.HasFeed := by
      simp [Newline.HasFeed]
    exact .seq (.withLast (.paragraph hrules hfeed)) .done

/-- The body of an item ends the line of the marker, if it has a text. -/
theorem itemBody (hrules : pass.rules = .standard) (done : List Line) (text : String) :
    Lays pass newline (n + 3) (.indent (.spaces 2) (.render (.item (bulletItem text))))
      last { done, current := some "- " }
      (if text = "" then { done, current := some "- " }
        else { done := done ++ [⟨"- " ++ text, .lf⟩] }) := by
  let before : Page := { done, current := some "- " }
  let marked : Page := before.pushIndent (.spaces 2)
  have body : Lays pass newline (n + 3) (.render (.item (bulletItem text))) last
      marked (marked.writeLines (if text = "" then [] else [⟨text, .lf⟩])) :=
    itemText hrules text
  have settled : before.Settled := by simp [Page.Settled, before]
  -- The lead of the item is not used, since its only line is that of the marker.
  have leave (after : Page) (hafter : after.Settled) (hinner : after.inner = [.spaces 2])
      (h : Lays pass newline (n + 3) (.render (.item (bulletItem text))) last marked
        after) :
      Lays pass newline (n + 3) (.indent (.spaces 2) (.render (.item (bulletItem text))))
        last before after.popIndent :=
    indent settled h hafter (by simp [hinner])
  by_cases hempty : text = ""
  · rw [if_pos hempty] at body ⊢
    exact leave marked settled rfl body
  · rw [if_neg hempty, Page.writeLines_of_some rfl] at body
    rw [if_neg hempty]
    exact leave ⟨done ++ [⟨"- " ++ text, .lf⟩], none, [.spaces 2]⟩
      (by simp [Page.Settled]) rfl body

/-- Each item ends the line before it and adds its own. -/
theorem itemLines (hrules : pass.rules = .standard) (hnewline : newline.HasFeed)
    (texts : List String) (index : Nat) (hinner : page.inner = []) (hsettled : page.Settled) :
    Lays pass newline (n + 3) (.items {} index (texts.map bulletItem)) last page
      (texts.foldl (Page.bullet newline) page) := by
  induction texts generalizing page index with
  | nil => exact .done
  | cons text rest ih =>
    have ensured : Lays pass newline (n + 3) .ensureLine last page (page.ensureLine newline) :=
      ensureLine hnewline hsettled
    rw [Page.ensureLine_of_inner hinner] at ensured
    exact .seq ensured <| .seq (.itemMarker _ index) <| .seq (.itemBody hrules _ text) <|
      .seq (.withLast (.noLinesAfter rfl)) <| .seq .done <|
      .seq (ih _ Page.inner_bullet Page.settled_bullet) .done

/-- The list of some items, with lines behind it. -/
theorem bulletList (hrules : pass.rules = .standard) (hnewline : newline.HasFeed)
    (texts : List String) {after : List Line} (hafter : ∀ line ∈ after, line.newline.HasFeed) :
    Lays pass newline (n + 4)
      (.render (.block (.list {} (texts.map bulletItem) { linesAfter := some after })))
      last {} ((texts.foldl (Page.bullet newline) {}).writeLines after) := by
  refine .render hrules rfl ?_
  exact .seq (.ensureLine hnewline nofun) <|
    .seq (.withCompact
      (.seq (.noLinesBefore rfl) (.itemLines hrules hnewline texts _ rfl nofun))) <|
    .seq (.linesAfter rfl hafter) .done

end Program.Lays

namespace Pass

/-- **A bullet list has one line for each item, unless the last item has no text.** The line of such
an item is taken for a line behind the list when its source is read, so it is written behind the
marker of the item. -/
theorem lines_bulletSource {init : List String} {last : String}
    (htexts : ∀ text ∈ init ++ [last], Unbroken text.toList) {options : ParseOptions}
    (hemoji : options.emoji = false) (hroom : 2 ≤ options.maxDepth) (registry : EmojiRegistry)
    {pass : Pass} (hrules : pass.rules = .standard) (hnewline : pass.options.newline.HasFeed)
    (hdepth : 5 ≤ pass.options.maxDepth) :
    ∃ document r,
      Document.ofEvents? (bulletSource (init ++ [last])) [] options
        (bulletEvents (init ++ [last])) registry = some document ∧
      (pass.run document).result = .ok r ∧
      Line.split r.text = init.map (Page.bulletWritten pass.options.newline) ++
        [⟨if last = "" then "- -" else "- " ++ last, .lf⟩] ∧
      ((Line.split r.text).map (·.text) = (init ++ [last]).map ("- " ++ ·) ↔ last ≠ "") := by
  have hdocument := Document.ofEvents?_bulletSource htexts hemoji hroom registry
  have hafter : ∀ line ∈ if last = "" then [(⟨"-", .lf⟩ : Line)] else [],
      line.newline.HasFeed := by
    split <;> simp [Newline.HasFeed]
  have laid : Program.Lays pass pass.options.newline 4 (.render (.block (.list {}
      ((init ++ [last]).map bulletItem)
      { linesAfter := some (if last = "" then [⟨"-", .lf⟩] else []) }))) true {} _ :=
    .bulletList hrules hnewline (init ++ [last]) hafter
  rw [Page.writeLines_bullets] at laid
  obtain ⟨r, hresult, htext⟩ := exists_result_of_lays hrules laid hdepth
  have neat := Page.neat_bullets hnewline htexts
  have lines : Line.split r.text = init.map (Page.bulletWritten pass.options.newline) ++
      [⟨if last = "" then "- -" else "- " ++ last, .lf⟩] := by
    rw [htext, Page.split_text neat nofun]
    exact List.append_nil _
  refine ⟨_, r, hdocument, hresult, lines, ?_⟩
  have texts : (init.map (Page.bulletWritten pass.options.newline)).map (·.text) =
      init.map ("- " ++ ·) := List.map_map
  rw [lines, List.map_append, texts, List.map_append, List.append_cancel_left_eq]
  by_cases hempty : last = "" <;> simp [hempty]

theorem lines_bulletSource_empty :
    (∀ text ∈ ["a", ""] ++ [""], Unbroken text.toList) ∧
    ∃ document r,
      Document.ofEvents? (bulletSource (["a", ""] ++ [""])) [] { emoji := false }
        (bulletEvents (["a", ""] ++ [""])) = some document ∧
      (Pass.run { rules := .standard } document).result = .ok r ∧
      Line.split r.text = [⟨"- a", .lf⟩, ⟨"- ", .lf⟩] ++ [⟨"- -", .lf⟩] ∧
      ((Line.split r.text).map (·.text) = ["- a", "- ", "- "] ↔ "" ≠ "") := by
  have unbroken : ∀ text ∈ ["a", ""] ++ [""], Unbroken text.toList := by decide
  exact ⟨unbroken,
    lines_bulletSource unbroken rfl (by decide) knownEmoji rfl (.inl rfl) (by decide)⟩

/-- A marker alone is rendered as two of them. -/
theorem lines_ne_of_dash :
    ¬∃ document r,
      Document.ofEvents? "-\n" [] { emoji := false }
        [⟨.enter (.list none), ⟨0, 2⟩⟩, ⟨.enter .item, ⟨0, 2⟩⟩, ⟨.leave .item, ⟨0, 2⟩⟩,
          ⟨.leave .list, ⟨0, 2⟩⟩] = some document ∧
      (Pass.run { rules := .standard } document).result = .ok r ∧
      (Line.split r.text).map (·.text) = ["- "] := by
  rintro ⟨document, r, hdocument, hresult, hlines⟩
  have built : Document.ofEvents? "-\n" [] { emoji := false }
      [⟨.enter (.list none), ⟨0, 2⟩⟩, ⟨.enter .item, ⟨0, 2⟩⟩, ⟨.leave .item, ⟨0, 2⟩⟩,
        ⟨.leave .list, ⟨0, 2⟩⟩] =
      some ⟨[.list {} [.mk [] .tracked] { linesAfter := some [⟨"-", .lf⟩] }]⟩ := by cbv
  obtain rfl := Option.some.inj (built.symm.trans hdocument)
  have rendered : (Pass.run { rules := .standard }
      ⟨[.list {} [.mk [] .tracked] { linesAfter := some [⟨"-", .lf⟩] }]⟩).result =
      .ok ⟨"- -\n", [], .utf16⟩ := by cbv
  obtain rfl := Except.ok.inj (rendered.symm.trans hresult)
  exact absurd hlines (by decide)

end Pass

end MarkdownSpans
