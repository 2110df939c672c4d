import MarkdownSpans.Proofs.Tree.LayoutRun
import MarkdownSpans.Proofs.Tree.Translation

/-!
# Building fenced blocks of code

A fenced block of code is closed by a line of marks or by the end of the source. Which of the two it
was is read off the last line of the block that is not empty: a line of content there that looks
like a closing fence is taken for one, whatever its width
(`FencedSource.isSome_recordedClosing_iff`). The empty lines behind it stand behind the block as
well.
-/

namespace MarkdownSpans

open Line (Chained joined size)

/-! ### Sources -/

/-- A source that is one fenced block of code. It makes no difference to what is proved whether a
line of its content could close the block. -/
structure FencedSource where
  /-- Whether the fence is made of tildes, not of backticks. -/
  tilde : Bool
  /-- The number of marks of the opening fence. -/
  width : Nat
  three_le : 3 ≤ width
  /-- What stands behind these marks. -/
  behind : String
  content : List String
  /-- The number of marks of the closing fence, if there is one. -/
  closing : Option Nat
  le_closing : ∀ m ∈ closing, width ≤ m
  unbroken_behind : Unbroken behind.toList
  unbroken_content : ∀ text ∈ content, Unbroken text.toList

namespace FencedSource

variable (f : FencedSource)

/-- The character of the fences. -/
def mark : Char := if f.tilde then '~' else '\x60'

/-- The line of the opening fence. -/
def openingLine : Line :=
  ⟨String.ofList (List.replicate f.width f.mark ++ f.behind.toList), .lf⟩

/-- The lines of the content. -/
def contentLines : List Line := f.content.map (⟨·, .lf⟩)

/-- A line of marks. -/
def marksLine (m : Nat) : Line := ⟨String.ofList (List.replicate m f.mark), .lf⟩

/-- The line of the closing fence, if there is one. -/
def closingLine : Option Line := f.closing.map f.marksLine

/-- The lines behind the opening fence. -/
def body : List Line := f.contentLines ++ f.closingLine.toList

/-- The lines of the source. -/
def lines : List Line := f.openingLine :: f.body

/-- The source. -/
def source : String := String.ofList (joined f.lines)

/-- The events of the block, with its text in some pieces. -/
def events (info : String) (pieces : List (String × ByteRange)) : List RangedEvent :=
  let range : ByteRange := ⟨0, size f.lines⟩
  ⟨.enter (.codeBlock (some info)), range⟩ ::
    (pieces.map (fun piece => ⟨.text piece.1, piece.2⟩) ++ [⟨.leave .codeBlock, range⟩])

end FencedSource

/-- A line without text. -/
def Line.isEmpty (line : Line) : Bool := line.text == ""

/-! ### What looks like a closing fence -/

/-- Characters look like a closing fence, of whatever width: they are at least three marks, with
nothing but white space behind them, and with white space and markers of quotes before them. -/
def Fencelike (mark : Char) (text : List Char) : Prop :=
  ∃ lead n trail, text = lead ++ (List.replicate n mark ++ trail) ∧ 3 ≤ n ∧
    (∀ c ∈ lead, (c == '>' || isSpace c) = true) ∧ ∀ c ∈ trail, isSpace c = true

namespace Builder

/-- What stands before marks is left out. -/
theorem closingCandidate_append {mark : Char} (hmark : mark = '~' ∨ mark = '\x60')
    {lead : List Char} (hlead : ∀ c ∈ lead, (c == '>' || isSpace c) = true) {n : Nat} (hn : 0 < n)
    (trail : List Char) :
    closingCandidate (lead ++ (List.replicate n mark ++ trail)) =
      List.replicate n mark ++ trail := by
  obtain ⟨k, rfl⟩ := Nat.exists_eq_add_one.2 hn
  have solid : (mark == '>' || isSpace mark) = false := by
    rcases hmark with rfl | rfl <;> decide
  rw [closingCandidate, List.dropWhile_append_of_pos hlead, List.replicate_succ, List.cons_append,
    List.dropWhile_cons_of_neg (by simp [solid])]

/-- A line is taken for a closing fence just if it looks like one. -/
theorem isClosingFence_iff {mark : Char} (hmark : mark = '~' ∨ mark = '\x60') (text : List Char) :
    isClosingFence mark (closingCandidate text) = true ↔ Fencelike mark text := by
  have narrow : mark.utf8Size = 1 := by rcases hmark with rfl | rfl <;> decide
  rw [isClosingFence, Bool.and_eq_true, decide_eq_true_iff]
  constructor
  · rintro ⟨hwidth, hall⟩
    obtain ⟨marks, hmarks⟩ : ∃ marks, marks = (closingCandidate text).rdropWhile isSpace :=
      ⟨_, rfl⟩
    rw [dropRightWhile_eq_rdropWhile, ← hmarks] at hwidth hall
    have run : marks = List.replicate marks.length mark :=
      List.eq_replicate_of_mem fun c hc => by simpa using List.all_eq_true.1 hall c hc
    have cut := List.takeWhile_append_dropWhile (p := fun c => c == '>' || isSpace c) (l := text)
    have cut' := List.rdropWhile_append_rtakeWhile (p := isSpace) (l := closingCandidate text)
    refine ⟨text.takeWhile fun c => c == '>' || isSpace c, marks.length,
      (closingCandidate text).rtakeWhile isSpace, ?_, ?_,
      List.all_eq_true.1 List.all_takeWhile, fun _ => List.mem_rtakeWhile_imp⟩
    · rw [← run, hmarks, cut']
      exact cut.symm
    · rwa [run, byteLength_replicate _ narrow] at hwidth
  · rintro ⟨lead, n, trail, rfl, hn, hlead, htrail⟩
    have last : ∀ c ∈ (List.replicate n mark).getLast?, isSpace c = false := by
      intro c hc
      rw [List.eq_of_mem_replicate (List.mem_of_getLast? hc)]
      rcases hmark with rfl | rfl <;> rfl
    rw [closingCandidate_append hmark hlead (show 0 < n by omega),
      dropRightWhile_eq_rdropWhile, rdropWhile_append_of_pos last htrail,
      byteLength_replicate n narrow]
    exact ⟨hn, by simp⟩

/-- What is taken for a closing fence if it stands in the last line of a block. -/
def closingGuess (mark : Char) (line : Line) : Option Line :=
  if isClosingFence mark (closingCandidate line.text.toList) then
    some ⟨String.ofList (closingCandidate line.text.toList), line.newline⟩
  else none

theorem isSome_closingGuess_iff {mark : Char} (hmark : mark = '~' ∨ mark = '\x60') (line : Line) :
    (closingGuess mark line).isSome = true ↔ Fencelike mark line.text.toList := by
  rw [← isClosingFence_iff hmark, closingGuess]
  split <;> simp_all

/-- A line of marks is taken for what it is. -/
theorem closingGuess_replicate {mark : Char} (hmark : mark = '~' ∨ mark = '\x60') {m : Nat}
    (hm : 3 ≤ m) (n : Newline) :
    closingGuess mark ⟨String.ofList (List.replicate m mark), n⟩ =
      some ⟨String.ofList (List.replicate m mark), n⟩ := by
  have candidate : closingCandidate (List.replicate m mark) = List.replicate m mark := by
    simpa using closingCandidate_append hmark (List.forall_mem_nil _) (show 0 < m by omega) []
  have fencelike : Fencelike mark (List.replicate m mark) := ⟨[], m, [], by simp, hm, nofun, nofun⟩
  rw [closingGuess, String.toList_ofList, if_pos ((isClosingFence_iff hmark _).2 fencelike),
    candidate]

variable {a blanks : List Line} {line : Line}

/-- The fence lines of a block over a whole source: its first line, and its last one that is not
empty if that is another one and looks like a fence. -/
theorem fence?_joined (h : Chained (a ++ line :: blanks)) {first : Line} {rest : List Line}
    (hfirst : a ++ line :: blanks = first :: rest) {mark : Char}
    (hmark : (first.text.toList.dropWhile isSpace).head?.getD '\x60' = mark) (info : String) :
    fence? (joined (a ++ line :: blanks)) info 0
        ⟨byteLength (joined a ++ line.text.toList), line.newline, size (a ++ [line])⟩ =
      some ⟨info, first, if a = [] then none else closingGuess mark line⟩ := by
  have source : joined (a ++ line :: blanks) =
      joined a ++ (line.text.toList ++ (line.newline.chars ++ joined blanks)) := by
    simp [Line.chars]
  have source' : joined (a ++ line :: blanks) =
      [] ++ (first.text.toList ++ (first.newline.chars ++ joined rest)) := by
    simp [hfirst, Line.chars]
  -- The first line.
  have firstEnd : lineEnd? (joined (a ++ line :: blanks)) 0 =
      some ⟨byteLength first.text.toList, first.newline,
        byteLength first.text.toList + first.newline.chars.length⟩ := by
    have chained : Chained ([] ++ first :: rest) := hfirst ▸ h
    have found := lineEnd?_append [] chained.unbroken chained.ends
    rw [← source'] at found
    simpa using found
  have opening : sliceChars (joined (a ++ line :: blanks)) 0 (byteLength first.text.toList) =
      some first.text.toList := by
    rw [source', ← List.append_assoc]
    exact sliceChars_append [] first.text.toList _
  -- The last line that is not empty.
  have lastStart : lineStart? (joined (a ++ line :: blanks))
      (byteLength (joined a ++ line.text.toList)) = some (size a) := by
    rw [source]
    exact lineStart?_append (h.endsLine (by simp)) h.unbroken _
  have last : sliceChars (joined (a ++ line :: blanks)) (size a)
      (byteLength (joined a ++ line.text.toList)) = some line.text.toList := by
    rw [source, ← List.append_assoc]
    exact sliceChars_append (joined a) line.text.toList _
  rw [fence?]
  simp only [firstEnd, opening, lastStart, last, hmark, Option.bind_eq_bind, Option.bind_some,
    String.ofList_toList]
  by_cases hnone : a = []
  · rw [if_pos hnone, if_neg (by simp [hnone])]
  · have before : 0 < size a :=
      byteLength_pos fun hnil => hnone (h.left.eq_nil_of_joined hnil)
    rw [if_neg hnone, if_pos before]
    rfl

end Builder

namespace FencedSource

variable (f : FencedSource)

/-- What is recorded as the closing fence. -/
def recordedClosing : Option Line :=
  (f.body.rdropWhile Line.isEmpty).getLast?.bind (Builder.closingGuess f.mark)

/-- The empty lines at the end. -/
def trailing : List Line := f.body.rtakeWhile Line.isEmpty

/-- Whether the last line of the content that is not empty looks like a closing fence. -/
def Feigned : Prop :=
  ∃ line ∈ (f.contentLines.rdropWhile Line.isEmpty).getLast?, Fencelike f.mark line.text.toList

theorem mark_eq_or : f.mark = '~' ∨ f.mark = '\x60' := by
  unfold mark
  split
  · exact .inl rfl
  · exact .inr rfl

theorem isSpace_mark : isSpace f.mark = false := by
  rcases f.mark_eq_or with h | h <;> rw [h] <;> rfl

theorem unbroken_marks (n : Nat) : Unbroken (List.replicate n f.mark) := by
  intro c hc
  obtain rfl := List.eq_of_mem_replicate hc
  rcases f.mark_eq_or with h | h <;> rw [h] <;> rfl

theorem exists_openingLine :
    ∃ rest, f.openingLine.text.toList = f.mark :: rest := by
  obtain ⟨n, hn⟩ : ∃ n, f.width = n + 1 := Nat.exists_eq_add_one.2 (by have := f.three_le; omega)
  exact ⟨List.replicate n f.mark ++ f.behind.toList, by
    rw [openingLine, String.toList_ofList, hn, List.replicate_succ, List.cons_append]⟩

/-- The lines of a source are whole lines. -/
theorem unbroken_of_mem {line : Line} (hline : line ∈ f.lines) :
    Unbroken line.text.toList ∧ line.newline = .lf := by
  rcases List.mem_cons.1 hline with rfl | hline
  · refine ⟨?_, rfl⟩
    rw [openingLine, String.toList_ofList]
    exact (f.unbroken_marks _).append f.unbroken_behind
  rcases List.mem_append.1 hline with hline | hline
  · obtain ⟨text, htext, rfl⟩ := List.mem_map.1 hline
    exact ⟨f.unbroken_content text htext, rfl⟩
  · rw [closingLine, Option.mem_toList, Option.map_eq_some_iff] at hline
    obtain ⟨m, -, rfl⟩ := hline
    refine ⟨?_, rfl⟩
    rw [marksLine, String.toList_ofList]
    exact f.unbroken_marks m

theorem chained_lines : Chained f.lines := .of_lf fun _ => f.unbroken_of_mem

/-! ### What is read off the last line -/

theorem body_of_none (h : f.closing = none) : f.body = f.contentLines := by
  simp [body, closingLine, h]

theorem body_of_some {m : Nat} (h : f.closing = some m) :
    f.body = f.contentLines ++ [f.marksLine m] := by
  simp [body, closingLine, h]

theorem isEmpty_marksLine {m : Nat} (hm : 3 ≤ m) : (f.marksLine m).isEmpty = false := by
  obtain ⟨k, rfl⟩ : ∃ k, m = k + 1 := Nat.exists_eq_add_one.2 (by omega)
  have filled : (f.marksLine (k + 1)).text ≠ "" := by simp [marksLine]
  simpa [Line.isEmpty] using filled

/-- A closing fence is recorded, and nothing stands behind it. -/
theorem recordedClosing_of_isSome (h : f.closing.isSome = true) :
    f.recordedClosing = f.closingLine ∧ f.trailing = [] := by
  obtain ⟨m, hm⟩ := Option.isSome_iff_exists.1 h
  have width : 3 ≤ m := Nat.le_trans f.three_le (f.le_closing m hm)
  have filled : ¬(f.marksLine m).isEmpty := by simp [f.isEmpty_marksLine width]
  rw [recordedClosing, trailing, f.body_of_some hm]
  refine ⟨?_, List.rtakeWhile_concat_neg _ _ _ filled⟩
  rw [List.rdropWhile_concat_neg _ _ _ filled, List.getLast?_concat, Option.bind_some, marksLine,
    Builder.closingGuess_replicate f.mark_eq_or width, closingLine, hm]
  rfl

/-- **A closing fence is recorded** if there is one, and also if the content ends with a line that
looks like one. -/
theorem isSome_recordedClosing_iff :
    f.recordedClosing.isSome = true ↔ f.closing.isSome = true ∨ f.Feigned := by
  by_cases h : f.closing.isSome = true
  · have recorded := (f.recordedClosing_of_isSome h).1
    rw [recorded, closingLine, Option.isSome_map]
    exact ⟨.inl, fun _ => h⟩
  · have body := f.body_of_none (by simpa using h)
    rw [or_iff_right h, recordedClosing, Feigned, body]
    cases (f.contentLines.rdropWhile Line.isEmpty).getLast? with
    | none => simp
    | some line => simpa using Builder.isSome_closingGuess_iff f.mark_eq_or line

/-- Lines stand behind the block just if it is not closed and its content ends with them. -/
theorem trailing_eq_nil_iff :
    f.trailing = [] ↔ f.closing.isSome = true ∨ f.content.getLast? ≠ some "" := by
  by_cases h : f.closing.isSome = true
  · exact iff_of_true (f.recordedClosing_of_isSome h).2 (.inl h)
  · rw [or_iff_right h, trailing, f.body_of_none (by simpa using h)]
    rw [contentLines]
    rcases List.eq_nil_or_concat f.content with hnone | ⟨init, last, hlast⟩
    · simp [hnone]
    · simp [hlast, Line.isEmpty]

/-- **The recorded lines behind the content are those of the source** just if the end of the source
is not mistaken. -/
theorem recorded_eq_iff :
    f.recordedClosing.toList ++ f.trailing = f.closingLine.toList ↔
      f.closing.isSome = true ∨ ¬f.Feigned ∧ f.content.getLast? ≠ some "" := by
  by_cases h : f.closing.isSome = true
  · obtain ⟨recorded, trailing⟩ := f.recordedClosing_of_isSome h
    simp [h, recorded, trailing]
  · have closing : f.closingLine.toList = [] := by
      rw [closingLine, Option.not_isSome_iff_eq_none.1 h]
      rfl
    have recorded : f.recordedClosing.toList = [] ↔ ¬f.Feigned := by
      rw [Option.toList_eq_nil_iff, ← Option.not_isSome_iff_eq_none, f.isSome_recordedClosing_iff,
        or_iff_right h]
    rw [closing, List.append_eq_nil_iff, recorded, f.trailing_eq_nil_iff, or_iff_right h,
      or_iff_right h]

/-- The lines as they are recorded. -/
def recordedLines : List Line :=
  f.openingLine :: (f.contentLines ++ (f.recordedClosing.toList ++ f.trailing))

theorem chained_recordedLines : Chained f.recordedLines := by
  have cut := List.rdropWhile_append_rtakeWhile (p := Line.isEmpty) (l := f.body)
  have inBody {line : Line} (h : line ∈ f.body.rdropWhile Line.isEmpty ++ f.trailing) :
      Unbroken line.text.toList ∧ line.newline = .lf :=
    f.unbroken_of_mem (.tail _ (cut ▸ h))
  refine .of_lf fun line hline => ?_
  rcases List.mem_cons.1 hline with rfl | hline
  · exact f.unbroken_of_mem (.head _)
  rcases List.mem_append.1 hline with hline | hline
  · exact f.unbroken_of_mem (.tail _ (List.mem_append_left _ hline))
  rcases List.mem_append.1 hline with hline | hline
  · -- What is recorded of the last line is a part of it.
    obtain ⟨last, hlast, hguess⟩ := Option.bind_eq_some_iff.1 (Option.mem_toList.1 hline)
    obtain ⟨hunbroken, hnewline⟩ := inBody (List.mem_append_left _ (List.mem_of_getLast? hlast))
    unfold Builder.closingGuess at hguess
    split at hguess
    · obtain rfl := Option.some.inj hguess
      rw [String.toList_ofList]
      exact ⟨fun c hc => hunbroken c ((List.dropWhile_suffix _).subset hc), hnewline⟩
    · cases hguess
  · exact inBody (List.mem_append_right _ hline)

/-- The recorded lines are those of the source just if the end of the source is not mistaken. -/
theorem joined_recordedLines_iff :
    joined f.recordedLines = joined f.lines ↔
      f.closing.isSome = true ∨ ¬f.Feigned ∧ f.content.getLast? ≠ some "" := by
  rw [f.chained_recordedLines.joined_inj f.chained_lines, ← f.recorded_eq_iff, recordedLines, lines,
    body, List.cons_inj_right, List.append_right_inj]

/-! ### The document -/

/-- The last line of a source that is not empty, with what it is taken for. -/
theorem exists_last : ∃ a line, f.lines = a ++ line :: f.trailing ∧ line.text ≠ "" ∧
    (if a = [] then none else Builder.closingGuess f.mark line) = f.recordedClosing := by
  have cut := List.rdropWhile_append_rtakeWhile (p := Line.isEmpty) (l := f.body)
  rcases List.eq_nil_or_concat (f.body.rdropWhile Line.isEmpty) with hnone | ⟨a, line, hlast⟩
  · refine ⟨[], f.openingLine, ?_, ?_, ?_⟩
    · rw [hnone, List.nil_append] at cut
      rw [lines, trailing, cut, List.nil_append]
    · obtain ⟨rest, hrest⟩ := f.exists_openingLine
      intro hempty
      simp [hempty] at hrest
    · rw [recordedClosing, hnone]
      rfl
  · rw [List.concat_eq_append] at hlast
    refine ⟨f.openingLine :: a, line, ?_, ?_, ?_⟩
    · rw [hlast, List.append_assoc, List.singleton_append] at cut
      rw [lines, trailing, List.cons_append, cut]
    · have found : line ∈ (f.body.rdropWhile Line.isEmpty).getLast? := by simp [hlast]
      simpa [Line.isEmpty] using eq_false_of_mem_getLast?_rdropWhile found
    · rw [recordedClosing, hlast, if_neg (by simp), List.getLast?_concat]
      rfl

end FencedSource

namespace Builder

variable {cs : List Char} {options : BuildOptions}

/-- A fenced block over a whole source is built from its text and its fence lines. -/
theorem run_fenced {range : ByteRange} (hrange : range.start = 0) {last : LineEnd} {info : String}
    {fence : Fence} (hlast : blockEnd? cs range = some last)
    (hfence : fence? cs info 0 last = some fence) (pieces : List (String × ByteRange)) :
    (still cs options [{ kind := .document }] none 0).run
        (⟨.enter (.codeBlock (some info)), range⟩ ::
          (pieces.map (fun piece => ⟨.text piece.1, piece.2⟩) ++ [⟨.leave .codeBlock, range⟩])) =
      some (still cs options
        [{ kind := .document
           reversed := [.codeBlock (Line.split (String.join (pieces.map (·.1)))) (some fence)
             .tracked] }] none last.stop) := by
  have lineStart : lineStart? cs range.start = some 0 := by simp [hrange, lineStart?, takeBytes]
  have begun : (still cs options [{ kind := .document }] none 0).step
      ⟨.enter (.codeBlock (some info)), range⟩ =
      some (still cs options [{ kind := .document }]
        (some (.holding (.code "" (some info)) range.start range.start none [])) 0) := by
    show (still cs options _ none 0).beginLeaf _ range.start = _
    rw [beginLeaf,
      beginBlock_of_gap lineStart (IsPosition.gapFrom?_of_le (.zero _) (Nat.le_refl _) _)]
    rfl
  have texts := Builds.run_texts cs options [{ kind := .document }] 0
    (fun piece : String × ByteRange => ⟨.text piece.1, piece.2⟩) Prod.fst
    (.code · (some info)) (fun _ _ _ => rfl) pieces ""
    (.holding (.code "" (some info)) range.start range.start none [])
  rw [String.empty_append] at texts
  have closed (leaf : Leaf) : (still cs options [{ kind := .document }]
      (some { leaf with
        kind := .code (String.join (pieces.map (·.1))) (some info), linesBefore := none })
      0).closeCode range =
      some (still cs options
        [{ kind := .document
           reversed := [.codeBlock (Line.split (String.join (pieces.map (·.1)))) (some fence)
             .tracked] }] none last.stop) := by
    simp only [closeCode, still, hlast, hrange, hfence, Option.bind_eq_bind, Option.bind_some,
      Option.map_some]
    rfl
  exact run_within begun texts (closed _)

end Builder

namespace FencedSource

variable (f : FencedSource)

/-- The block of a source: its content, with the first line as the opening fence. -/
def block (info : String) : Block :=
  .codeBlock f.contentLines (some ⟨info, f.openingLine, f.recordedClosing⟩)
    { linesAfter := some f.trailing }

end FencedSource

open Builder in
/-- **The document of a fenced block.** Its lines are those of the text, and the closing fence and
the lines behind it are what the end of the source looks like. -/
theorem Document.ofEvents?_fencedSource (f : FencedSource) (info : String)
    {pieces : List (String × ByteRange)}
    (hpieces : String.join (pieces.map (·.1)) = String.ofList (joined f.contentLines))
    (options : ParseOptions) (registry : EmojiRegistry) :
    Document.ofEvents? f.source [] options (f.events info pieces) registry =
      some ⟨[f.block info]⟩ := by
  obtain ⟨a, line, hcut, hline, hclosing⟩ := f.exists_last
  obtain ⟨rest, hopening⟩ := f.exists_openingLine
  have chained : Chained (a ++ line :: f.trailing) := hcut ▸ f.chained_lines
  have empty : ∀ blank ∈ f.trailing, blank.text = "" := by
    intro blank hblank
    simpa [Line.isEmpty] using List.mem_rtakeWhile_imp hblank
  have ending := blockEnd?_joined chained hline empty
  have fence := @fence?_joined a f.trailing line chained f.openingLine f.body hcut.symm f.mark
    (by simp [hopening, f.isSpace_mark]) info
  rw [← hcut] at ending fence
  have gap := gapFrom?_joined (a := a ++ [line]) (g := f.trailing) (b := [])
    (by simpa using chained)
  rw [List.append_nil, List.append_assoc, List.singleton_append, ← hcut] at gap
  have run := @run_fenced _ ⟨options, registry⟩ _ rfl _ info _ ending fence pieces
  have content : Line.split (String.ofList (joined f.contentLines)) = f.contentLines := by
    have inner : Chained f.contentLines :=
      (show Chained ([f.openingLine] ++ f.body) from f.chained_lines).right.left
    simpa [Line.split] using inner.split_joined
  have source : f.source.toList = joined f.lines := String.toList_ofList
  refine (ofEvents?_of_run source run gap).trans ?_
  rw [hclosing, hpieces, content, withTrailing, FencedSource.block]
  by_cases hnone : f.trailing = []
  · rw [hnone]
    rfl
  · rw [if_neg (by simpa using hnone)]
    rfl

end MarkdownSpans
