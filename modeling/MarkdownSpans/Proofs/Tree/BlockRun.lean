import MarkdownSpans.Proofs.Tree.InlineRun
import MarkdownSpans.Proofs.Tree.Reading

/-!
# Block events

The events of a block tree, fed to a builder with no leaf open, add the block of the tree to the
innermost container (`BlockTree.Fits.builds`). Inline events that stand in an item by themselves
wait in an implicit paragraph, which the next block and the end of the item close
(`Builder.Waits.closeImplicit`).
-/

namespace MarkdownSpans

namespace Builder

variable {source : List Char} {options : BuildOptions} {containers : List Container}
  {cursor : Nat} {range : ByteRange}

/-! ### Open containers -/

/-- Open containers with a block added to the innermost one. -/
def onTop (block : Block) : List Container → List Container
  | [] => []
  | c :: rest => { c with reversed := block :: c.reversed } :: rest

/-- Open containers with the list marked loose whose item is the innermost one. -/
def loosened : List Container → List Container
  | item@{ kind := .item, .. } :: outer@{ kind := .list style items, .. } :: rest =>
    item :: { outer with kind := .list { style with loose := true } items } :: rest
  | containers => containers

theorem pushBlock_still (block : Block) (leaf : Option Leaf) :
    (still source options containers leaf cursor).pushBlock block =
      still source options (onTop block containers) leaf cursor := by
  cases containers <;> rfl

theorem markLoose_still (leaf : Option Leaf) :
    (still source options containers leaf cursor).markLoose =
      still source options (loosened containers) leaf cursor := by
  unfold loosened
  split
  · rfl
  · unfold markLoose
    split <;> simp_all [still]

/-! ### Beginnings and ends of blocks -/

/-- A block that begins takes the lines up to its own line. -/
theorem beginBlock_of_gap {start lineStart : Nat} {lines : List Line}
    (hlineStart : lineStart? source start = some lineStart)
    (hlines : gapFrom? source (1 < containers.length) cursor lineStart = some lines) :
    (still source options containers none cursor).beginBlock start =
      some (recorded lines, still source options containers none (max cursor lineStart)) := by
  simp [beginBlock, closeImplicit, flushDefinitions, takeDefinitions, gap?, isNested, still,
    hlineStart, hlines]

/-- A block that begins at a position only moves the cursor. -/
theorem beginBlock_still (hcursor : IsPosition source cursor) {start : Nat}
    (hstart : IsPosition source start) (options : BuildOptions) (containers : List Container) :
    ∃ lines cursor', IsPosition source cursor' ∧
      (still source options containers none cursor).beginBlock start =
        some (lines, still source options containers none cursor') := by
  obtain ⟨lineStart, hlineStart, -, hposition⟩ := hstart.exists_lineStart
  obtain ⟨lines, hlines⟩ := hcursor.exists_gap hposition (1 < containers.length)
  exact ⟨recorded lines, max cursor lineStart, hcursor.max hposition,
    beginBlock_of_gap hlineStart hlines⟩

/-- A leaf that begins at a position is empty. -/
theorem beginLeaf_still (hcursor : IsPosition source cursor) {start : Nat}
    (hstart : IsPosition source start) (options : BuildOptions) (containers : List Container)
    (kind : LeafKind) :
    ∃ lines cursor', IsPosition source cursor' ∧
      (still source options containers none cursor).beginLeaf kind start =
        some (still source options containers (some (.holding kind start start lines []))
          cursor') := by
  obtain ⟨lines, cursor', hcursor', hbegin⟩ := beginBlock_still hcursor hstart options containers
  exact ⟨lines, cursor', hcursor', by rw [beginLeaf, hbegin]; rfl⟩

/-- A paragraph is closed with its inlines and perhaps a line break. -/
theorem closeParagraph_still {start stop stop' : Nat} (hstart : IsPosition source start)
    (hstop : IsPosition source stop) (hstop' : IsPosition source stop') (hle : start ≤ stop)
    (options : BuildOptions) (containers : List Container) (cursor : Nat) (implicit : Bool)
    (lines : Option (List Line)) (is : List Inline) :
    ∃ built cursor', (Block.paragraph (joinLiterals is) {}).Agrees built ∧
      IsPosition source cursor' ∧
      (still source options containers
        (some (.holding (.paragraph implicit) start stop lines is)) cursor).closeParagraph stop' =
        some (still source options (onTop built containers) none cursor') := by
  have range : (ByteRange.mk start (max stop' stop)).Fits source :=
    ⟨hstart, hstop'.max hstop, Nat.le_trans hle (Nat.le_max_right ..)⟩
  obtain ⟨last, hlast, -, -, -, hposition⟩ := range.exists_blockEnd
  refine ⟨.paragraph (joinLiterals is ++
      if last.newline.isAbsent then [] else [.lineBreak last.newline false]) (tracked lines),
    last.stop, .paragraph _ _ _ ?_, hposition, ?_⟩
  · split
    · exact .inl rfl
    · exact .inr ⟨_, rfl⟩
  · rw [← pushBlock_still, ← Leaf.inlines_holding]
    simp only [closeParagraph, still, Leaf.holding, hlast, Option.bind_eq_bind, Option.bind_some]
    cases containers <;> rfl

/-- The fence lines are found again, and keep the text after the fence. -/
theorem exists_fence {start : Nat} {last : LineEnd} (hstart : IsPosition source start)
    (hlast : IsPosition source last.contentStop) (info : String) :
    ∃ fence, fence? source info start last = some fence ∧ fence.info = info := by
  obtain ⟨first, hfirst, hle, -, hposition, -⟩ := hstart.exists_lineEnd
  obtain ⟨opening, hopening, -⟩ := hstart.exists_slice hposition hle
  obtain ⟨lastStart, hlastStart, hle', hposition'⟩ := hlast.exists_lineStart
  obtain ⟨line, hline, -⟩ := hposition'.exists_slice hlast hle'
  unfold fence?
  simp only [hfirst, hopening, hlastStart, hline, Option.bind_eq_bind, Option.bind_some]
  split
  · exact ⟨_, rfl, rfl⟩
  · exact ⟨_, rfl, rfl⟩

/-- A block of code is closed with the fence lines, if it has a fence. -/
theorem closeCode_still {left : ByteRange} (hleft : left.Fits source) (options : BuildOptions)
    (containers : List Container) (cursor : Nat) (text : String) (info : Option String)
    (leaf : Leaf) :
    ∃ fence cursor', fence.map (·.info) = info ∧ IsPosition source cursor' ∧
      (still source options containers (some { leaf with kind := .code text info })
        cursor).closeCode left =
      some (still source options
        (onTop (.codeBlock (Line.split text) fence (tracked leaf.linesBefore)) containers) none
        cursor') := by
  obtain ⟨last, hlast, -, -, hcontent, hposition⟩ := hleft.exists_blockEnd
  cases info with
  | none =>
    refine ⟨none, last.stop, rfl, hposition, ?_⟩
    simp only [closeCode, still, hlast, Option.bind_eq_bind, Option.bind_some]
    cases containers <;> rfl
  | some info =>
    obtain ⟨fence, hfence, hinfo⟩ := exists_fence hleft.start hcontent info
    refine ⟨some fence, last.stop, by simp [hinfo], hposition, ?_⟩
    simp only [closeCode, still, hlast, hfence, Option.bind_eq_bind, Option.bind_some,
      Option.map_some]
    cases containers <;> rfl

/-! ### Leaves -/

/-- Events that add one block to the innermost of containers with room for `n` more around the
block and, if it is a paragraph of an item, mark its list loose. -/
def Builds (source : List Char) (options : BuildOptions) (n : Nat) (isParagraph : Bool)
    (events : List RangedEvent) (expected : Block) : Prop :=
  ∀ c rest cursor, rest.length + n ≤ options.maxDepth → IsPosition source cursor →
    ∃ built cursor', expected.Agrees built ∧ IsPosition source cursor' ∧
      (still source options (c :: rest) none cursor).run events =
        some (still source options
          (onTop built (if isParagraph then loosened (c :: rest) else c :: rest)) none cursor')

namespace Builds

variable {m n : Nat} {entered left : ByteRange} {content : List RangedEvent} {is : List Inline}

theorem paragraph (h : Appends source options m content is) (hdepth : m ≤ options.maxDepth)
    (hentered : entered.Fits source) (hleft : left.Fits source) :
    Builds source options n true
      (⟨.enter .paragraph, entered⟩ :: (content ++ [⟨.leave .paragraph, left⟩]))
      (.paragraph (joinLiterals is) {}) := by
  intro c rest cursor _ hcursor
  obtain ⟨lines, cursor₁, -, hbegin⟩ :=
    beginBlock_still hcursor hentered.start options (c :: rest)
  have begun : (still source options (c :: rest) none cursor).step
      ⟨.enter .paragraph, entered⟩ =
        some (still source options (loosened (c :: rest))
          (some (.holding (.paragraph false) entered.start entered.start lines [])) cursor₁) := by
    show (still source options (c :: rest) none cursor).enterParagraph entered = _
    simp only [enterParagraph, hbegin, Option.bind_eq_bind, Option.bind_some, markLoose_still]
    rfl
  obtain ⟨stop, hle, hstop, hrun⟩ :=
    h.run_holding hdepth (.paragraph false) rfl hentered.start
      (loosened (c :: rest)) cursor₁ entered.start lines
  obtain ⟨built, cursor₂, hbuilt, hcursor₂, hclose⟩ :=
    closeParagraph_still hentered.start hstop hleft.stop hle options (loosened (c :: rest))
      cursor₁ false lines is
  exact ⟨built, cursor₂, hbuilt, hcursor₂, run_within begun hrun hclose⟩

theorem heading (h : Appends source options m content is) (hdepth : m ≤ options.maxDepth)
    (hentered : entered.Fits source) (hleft : left.Fits source) (level : Nat) :
    Builds source options n false
      (⟨.enter (.heading level), entered⟩ :: (content ++ [⟨.leave .heading, left⟩]))
      (.heading level (joinLiterals is) (BlockTree.lastLine source left).newline {}) := by
  intro c rest cursor _ hcursor
  obtain ⟨lines, cursor₁, -, hbegin⟩ :=
    beginLeaf_still hcursor hentered.start options (c :: rest) (.heading level)
  obtain ⟨stop, -, -, hrun⟩ :=
    h.run_holding hdepth (.heading level) rfl hentered.start (c :: rest) cursor₁
      entered.start lines
  obtain ⟨last, hlast, -, -, -, hposition⟩ := hleft.exists_blockEnd
  have newline : (BlockTree.lastLine source left).newline = last.newline := by
    rw [BlockTree.lastLine, hlast, Option.getD_some]
  refine ⟨.heading level (joinLiterals is) last.newline (tracked lines), last.stop,
    newline ▸ .heading .., hposition, ?_⟩
  refine run_within hbegin hrun ?_
  have inlines : Leaf.foldFrames (pushInlines is []) [] [] = joinLiterals is :=
    reverse_pushInlines is
  show ((blockEnd? source left).bind _) = _
  rw [hlast, ← inlines]
  rfl

variable (source options containers cursor) in
/-- The text of a block of code or markup, the events of which only add to it. -/
theorem run_texts {α : Type} (e : α → RangedEvent) (text : α → String) (kind : String → LeafKind)
    (h : ∀ (before : String) (a : α) (leaf : Leaf),
      (still source options containers (some { leaf with kind := kind before }) cursor).step (e a) =
        some (still source options containers
          (some { leaf with kind := kind (before ++ text a) }) cursor))
    (as : List α) (before : String) (leaf : Leaf) :
    (still source options containers (some { leaf with kind := kind before }) cursor).run
        (as.map e) =
      some (still source options containers
        (some { leaf with kind := kind (before ++ String.join (as.map text)) }) cursor) := by
  induction as generalizing before with
  | nil => simp
  | cons a rest ih =>
    rw [List.map_cons, run_cons, h, Option.bind_some, ih, List.map_cons, String.join_cons,
      String.append_assoc]

theorem code (hentered : entered.Fits source) (hleft : left.Fits source) (info : Option String)
    (texts : List (String × ByteRange)) :
    Builds source options n false
      (⟨.enter (.codeBlock info), entered⟩ ::
        (texts.map (fun t => ⟨.text t.1, t.2⟩) ++ [⟨.leave .codeBlock, left⟩]))
      (.codeBlock (Line.split (String.join (texts.map (·.1))))
        (info.map fun info => ⟨info, .blank .absent, none⟩) {}) := by
  intro c rest cursor _ hcursor
  obtain ⟨lines, cursor₁, -, hbegin⟩ :=
    beginLeaf_still hcursor hentered.start options (c :: rest) (.code "" info)
  have hrun := run_texts source options (c :: rest) cursor₁ (fun t => ⟨.text t.1, t.2⟩) Prod.fst
    (.code · info) (fun _ _ _ => rfl) texts ""
    (.holding (.code "" info) entered.start entered.start lines [])
  rw [String.empty_append] at hrun
  obtain ⟨fence, cursor₂, hfence, hcursor₂, hclose⟩ :=
    closeCode_still hleft options (c :: rest) cursor₁ (String.join (texts.map Prod.fst)) info
      (.holding (.code "" info) entered.start entered.start lines [])
  refine ⟨_, cursor₂, .codeBlock _ _ (tracked lines) ?_, hcursor₂, run_within hbegin hrun hclose⟩
  rw [hfence, Option.map_map]
  exact Option.map_id'

theorem markup (hentered : entered.Fits source) (hleft : left.Fits source)
    (pieces : List (Bool × String × ByteRange)) :
    Builds source options n false
      (⟨.enter .htmlBlock, entered⟩ ::
        (pieces.map BlockTree.markupEvent ++ [⟨.leave .htmlBlock, left⟩]))
      (.htmlBlock (Line.split (String.join (pieces.map (·.2.1)))) {}) := by
  intro c rest cursor _ hcursor
  obtain ⟨lines, cursor₁, -, hbegin⟩ :=
    beginLeaf_still hcursor hentered.start options (c :: rest) (.html "")
  have hrun := run_texts source options (c :: rest) cursor₁ BlockTree.markupEvent
    (fun piece => piece.2.1) .html (fun _ ⟨isMarkup, _, _⟩ _ => by cases isMarkup <;> rfl) pieces ""
    (.holding (.html "") entered.start entered.start lines [])
  rw [String.empty_append] at hrun
  obtain ⟨last, hlast, -, -, -, hposition⟩ := hleft.exists_blockEnd
  refine ⟨.htmlBlock (Line.split (String.join (pieces.map (·.2.1)))) (tracked lines), last.stop,
    .htmlBlock .., hposition, run_within hbegin hrun ?_⟩
  show ((blockEnd? source left).bind _) = _
  rw [hlast]
  rfl

theorem rule (hrange : range.Fits source) :
    Builds source options n false [⟨.rule, range⟩]
      (.thematicBreak
        (String.ofList (InlineTree.sourceIn source
          ⟨range.start, (BlockTree.lastLine source range).contentStop⟩))
        (BlockTree.lastLine source range).newline {}) := by
  intro c rest cursor _ hcursor
  obtain ⟨lines, cursor₁, -, hbegin⟩ := beginBlock_still hcursor hrange.start options (c :: rest)
  obtain ⟨last, hlast, hle, -, hcontent, hposition⟩ := hrange.exists_blockEnd
  obtain ⟨content, hslice, -⟩ := hrange.start.exists_slice hcontent hle
  refine ⟨.thematicBreak (String.ofList content) last.newline (tracked lines), last.stop, ?_,
    hposition, ?_⟩
  · simpa [BlockTree.lastLine, InlineTree.sourceIn, hlast, hslice] using
      Block.Agrees.thematicBreak (String.ofList content) last.newline {} (tracked lines)
  · show ((still source options (c :: rest) none cursor).addRule range).bind _ = _
    simp only [addRule, hbegin, Option.bind_eq_bind, Option.bind_some]
    show (((blockEnd? source range).bind _).bind _) = _
    rw [hlast]
    show ((((sliceChars source _ _).bind _)).bind _) = _
    rw [hslice]
    rfl

end Builds

/-! ### Quotes -/

theorem loosened_of_ne_item {c : Container} (h : c.kind ≠ .item) (rest : List Container) :
    loosened (c :: rest) = c :: rest := by
  unfold loosened
  split
  · rename_i heq
    cases heq
    exact absurd rfl h
  · rfl

theorem fits_still (c : Container) {rest : List Container} (leaf : Option Leaf) (cursor : Nat)
    {levels : Nat} (h : rest.length + levels ≤ options.maxDepth) :
    (still source options (c :: rest) leaf cursor).fits levels := by
  exact decide_eq_true (p := rest.length + levels ≤ options.maxDepth) h

/-- Blank lines recorded after the last block make no difference. -/
theorem agrees_setLinesAfter {expected reversed : List Block}
    (h : List.Forall₂ Block.Agrees expected reversed) (lines : List Line) :
    List.Forall₂ Block.Agrees expected (setLinesAfter lines reversed) := by
  cases h with
  | nil => exact .nil
  | cons hlast hrest => exact .cons (hlast.withTrivia _) hrest

/-- Events that add some blocks to the innermost of containers with room for `n` more around them,
if it is not an item. -/
def BuildsAll (source : List Char) (options : BuildOptions) (n : Nat)
    (events : List RangedEvent) (expected : List Block) : Prop :=
  ∀ c rest cursor, c.kind ≠ .item → rest.length + n ≤ options.maxDepth →
    IsPosition source cursor →
    ∃ built cursor', List.Forall₂ Block.Agrees expected built ∧ IsPosition source cursor' ∧
      (still source options (c :: rest) none cursor).run events =
        some (still source options ({ c with reversed := built.reverse ++ c.reversed } :: rest)
          none cursor')

namespace BuildsAll

variable {n : Nat} {events events' : List RangedEvent} {block : Block} {blocks : List Block}

theorem nil : BuildsAll source options n [] [] := fun _ _ cursor _ _ hcursor =>
  ⟨[], cursor, .nil, hcursor, rfl⟩

theorem cons {isParagraph : Bool} (h : Builds source options n isParagraph events block)
    (h' : BuildsAll source options n events' blocks) :
    BuildsAll source options n (events ++ events') (block :: blocks) := by
  intro c rest cursor hkind hdepth hcursor
  obtain ⟨built, cursor₁, hbuilt, hcursor₁, hrun⟩ := h c rest cursor hdepth hcursor
  rw [loosened_of_ne_item hkind, ite_self] at hrun
  obtain ⟨builts, cursor₂, hbuilts, hcursor₂, hrun'⟩ :=
    h' { c with reversed := built :: c.reversed } rest cursor₁ hkind hdepth hcursor₁
  refine ⟨built :: builts, cursor₂, .cons hbuilt hbuilts, hcursor₂, ?_⟩
  rw [run_append, hrun, Option.bind_some, onTop, hrun', List.reverse_cons, List.append_assoc]
  rfl

end BuildsAll

theorem Builds.quote {n : Nat} {entered left : ByteRange} {content : List RangedEvent}
    {blocks : List Block} (h : BuildsAll source options n content blocks)
    (hentered : entered.Fits source) (hleft : left.Fits source)
    (hle : entered.start ≤ left.start) :
    Builds source options (n + 1) false
      (⟨.enter .blockQuote, entered⟩ :: (content ++ [⟨.leave .blockQuote, left⟩]))
      (.quote [] blocks {}) := by
  intro c rest cursor hdepth hcursor
  obtain ⟨lines, cursor₁, hcursor₁, hbegin⟩ :=
    beginBlock_still hcursor hentered.start options (c :: rest)
  have begun : (still source options (c :: rest) none cursor).step
      ⟨.enter .blockQuote, entered⟩ =
        some (still source options
          ({ kind := .quote entered.start, linesBefore := lines } :: c :: rest) none cursor₁) := by
    show (still source options (c :: rest) none cursor).enterQuote entered = _
    rw [enterQuote, if_pos (fits_still c none cursor (by omega)), hbegin]
    rfl
  obtain ⟨built, cursor₂, hbuilt, hcursor₂, hrun⟩ :=
    h { kind := .quote entered.start, linesBefore := lines } (c :: rest) cursor₁ nofun
      (by simp; omega) hcursor₁
  obtain ⟨last, hlast, hcontent, hstop, -, hposition⟩ := hleft.exists_blockEnd
  obtain ⟨lineStart, hlineStart, hlineStart_le, hlineStart_position⟩ :=
    hentered.start.exists_lineStart
  obtain ⟨text, htext, -⟩ := hlineStart_position.exists_slice hposition (by omega)
  obtain ⟨trailing, htrailing⟩ := hcursor₂.exists_gap hposition true
  have agrees : List.Forall₂ Block.Agrees blocks
      (if trailing.isEmpty then built.reverse else setLinesAfter trailing built.reverse).reverse := by
    rw [← List.forall₂_reverse_iff, List.reverse_reverse]
    split
    · exact List.forall₂_reverse_iff.2 hbuilt
    · exact agrees_setLinesAfter (List.forall₂_reverse_iff.2 hbuilt) trailing
  refine ⟨_, max cursor₂ last.stop,
    .quote [] (quoteLines (entered.start - lineStart) text) {} (tracked lines) agrees,
    hcursor₂.max hposition, run_within begun hrun ?_⟩
  rw [List.append_nil]
  show ((blockEnd? source left).bind _) = _
  rw [hlast]
  show ((gapFrom? source true cursor₂ last.stop).bind _) = _
  rw [htrailing]
  show ((lineStart? source entered.start).bind _) = _
  rw [hlineStart]
  show ((sliceChars source lineStart last.stop).bind _) = _
  rw [htext]
  rfl

/-! ### Inlines that stand in an item by themselves -/

/-- The leaf of inline events that stand in an item by themselves: none before the first of them,
then an implicit paragraph. -/
inductive Waits (source : List Char) (options : BuildOptions) :
    List InlineTree → Option Leaf → Prop where
  | nothing : Waits source options [] none
  | paragraph {run : List InlineTree} {start stop : Nat} (lines : Option (List Line)) (hne : run ≠ [])
    (hstart : IsPosition source start) (hstop : IsPosition source stop) (hle : start ≤ stop) :
    Waits source options run (some (.holding (.paragraph true) start stop lines
      (InlineTree.listInlines source options run)))

theorem closeImplicit_still :
    (still source options containers none cursor).closeImplicit =
      some (still source options containers none cursor) := rfl

/-- An implicit paragraph is closed as the paragraph of the inlines that wait. -/
theorem Waits.closeImplicit {run : List InlineTree} {leaf : Option Leaf}
    (h : Waits source options run leaf) (hcursor : IsPosition source cursor)
    (c : Container) (rest : List Container) :
    ∃ built cursor',
      List.Forall₂ Block.Agrees (BlockTree.flush source options run) built ∧
      IsPosition source cursor' ∧
      (still source options (c :: rest) leaf cursor).closeImplicit =
        some (still source options ({ c with reversed := built.reverse ++ c.reversed } :: rest)
          none cursor') := by
  cases h with
  | nothing => exact ⟨[], cursor, .nil, hcursor, closeImplicit_still⟩
  | @paragraph _ start stop lines hne hstart hstop hle =>
    obtain ⟨t, more, rfl⟩ := List.exists_cons_of_ne_nil hne
    obtain ⟨built, cursor', hbuilt, hcursor', hclose⟩ :=
      closeParagraph_still hstart hstop hstop hle options (c :: rest) cursor true lines
        (InlineTree.listInlines source options (t :: more))
    exact ⟨[built], cursor', .cons hbuilt .nil, hcursor', hclose⟩

/-- A block that begins closes the implicit paragraph before it. -/
theorem beginBlock_of_closeImplicit {b : Builder}
    (h : b.closeImplicit = some (still source options containers none cursor)) (start : Nat) :
    b.beginBlock start = (still source options containers none cursor).beginBlock start := by
  rw [beginBlock, h, beginBlock, closeImplicit_still]

/-- A block is built as if the implicit paragraph before it had been closed first. -/
theorem run_of_closeImplicit {m n : Nat} {t : BlockTree} (ht : t.Fits source m n)
    {c c' : Container} (rest : List Container) {leaf : Option Leaf} {cursor' : Nat}
    (hdepth : rest.length + n ≤ options.maxDepth)
    (h : (still source options (c :: rest) leaf cursor).closeImplicit =
      some (still source options (c' :: rest) none cursor')) :
    (still source options (c :: rest) leaf cursor).run t.events =
      (still source options (c' :: rest) none cursor').run t.events := by
  have begin_eq := beginBlock_of_closeImplicit h
  have leaf_eq (kind : LeafKind) (start : Nat) :
      (still source options (c :: rest) leaf cursor).beginLeaf kind start =
        (still source options (c' :: rest) none cursor').beginLeaf kind start := by
    rw [beginLeaf, beginLeaf, begin_eq]
  cases ht with
  | @paragraph _ entered =>
    have : (still source options (c :: rest) leaf cursor).enterParagraph entered =
        (still source options (c' :: rest) none cursor').enterParagraph entered := by
      rw [enterParagraph, enterParagraph, begin_eq]
    exact congrArg (Option.bind · _) this
  | @heading _ entered _ _ level =>
    exact congrArg (Option.bind · _) (leaf_eq (.heading level) entered.start)
  | @code _ entered _ info =>
    exact congrArg (Option.bind · _) (leaf_eq (.code "" info) entered.start)
  | @markup _ entered =>
    exact congrArg (Option.bind · _) (leaf_eq (.html "") entered.start)
  | @rule _ range =>
    have : (still source options (c :: rest) leaf cursor).addRule range =
        (still source options (c' :: rest) none cursor').addRule range := by
      rw [addRule, addRule, begin_eq]
    exact congrArg (Option.bind · _) this
  | @quote n entered =>
    have : (still source options (c :: rest) leaf cursor).enterQuote entered =
        (still source options (c' :: rest) none cursor').enterQuote entered := by
      rw [enterQuote, enterQuote, if_pos (fits_still c leaf cursor (by omega)),
        if_pos (fits_still c' none cursor' (by omega)), begin_eq]
    exact congrArg (Option.bind · _) this
  | @list n entered _ first =>
    have : (still source options (c :: rest) leaf cursor).enterList first entered =
        (still source options (c' :: rest) none cursor').enterList first entered := by
      rw [enterList, enterList, if_pos (fits_still c leaf cursor (by omega)),
        if_pos (fits_still c' none cursor' (by omega)), begin_eq]
    exact congrArg (Option.bind · _) this

section NoLeaf

variable {b b' : Builder} (hleaf : b.leaf = none)

theorem exists_leaf_of_beginLeaf {kind : LeafKind} {start : Nat}
    (h : b.beginLeaf kind start = some b') : ∃ leaf, b'.leaf = some leaf ∧ leaf.kind = kind := by
  simp only [beginLeaf, Option.bind_eq_bind, Option.bind_eq_some_iff, Option.some.injEq] at h
  obtain ⟨⟨lines, b₁⟩, -, rfl⟩ := h
  exact ⟨_, rfl, rfl⟩

include hleaf

/-- An inline that no leaf is open for opens an implicit paragraph. -/
theorem ensureLeaf_of_beginLeaf (hbegin : b.beginLeaf (.paragraph true) range.start = some b') :
    b.ensureLeaf range = b'.ensureLeaf range := by
  obtain ⟨leaf, hleaf', -⟩ := exists_leaf_of_beginLeaf hbegin
  simp [ensureLeaf, hleaf, hleaf', hbegin]

theorem addText_of_beginLeaf (hbegin : b.beginLeaf (.paragraph true) range.start = some b')
    (content : String) : b.addText content range = b'.addText content range := by
  obtain ⟨⟨kind, start, stop, linesBefore, root, frames⟩, hleaf', rfl⟩ :=
    exists_leaf_of_beginLeaf hbegin
  have reading := reading_beginLeaf hbegin
  have source : b'.source = b.source := congrArg Prod.fst reading
  have options : b'.options = b.options := congrArg Prod.snd reading
  simp only [addText, hleaf, hleaf', source, options, addInline,
    ensureLeaf_of_beginLeaf hleaf hbegin]

theorem addText_eq_none (hbegin : b.beginLeaf (.paragraph true) range.start = none)
    (content : String) : b.addText content range = none := by
  simp [addText, hleaf, addInline, ensureLeaf, hbegin]

end NoLeaf

/-- The first inline that stands in an item by itself opens an implicit paragraph. -/
theorem ensureLeaf_still_none (hcursor : IsPosition source cursor) (hrange : range.Fits source)
    (options : BuildOptions) (containers : List Container) :
    ∃ lines cursor', IsPosition source cursor' ∧
      (still source options containers none cursor).ensureLeaf range =
        (still source options containers
          (some (.holding (.paragraph true) range.start range.start lines [])) cursor').ensureLeaf
          range := by
  obtain ⟨lines, cursor', hcursor', hbegin⟩ :=
    beginLeaf_still hcursor hrange.start options containers (.paragraph true)
  exact ⟨lines, cursor', hcursor', ensureLeaf_of_beginLeaf rfl hbegin⟩

/-- Inline events that stand in an item by themselves are added to an implicit paragraph. -/
theorem run_fresh {n : Nat} {t : InlineTree} (h : t.Fits source n)
    (hcursor : IsPosition source cursor) (options : BuildOptions) (containers : List Container) :
    ∃ start lines cursor', IsPosition source start ∧ IsPosition source cursor' ∧
      (still source options containers none cursor).run t.events =
        (still source options containers
          (some (.holding (.paragraph true) start start lines [])) cursor').run t.events := by
  -- Every event looks for the leaf first.
  have opened {range : ByteRange} (hrange : range.Fits source) :=
    ensureLeaf_still_none hcursor hrange options containers
  have add {range : ByteRange} {b b' : Builder} (hleaf : b.ensureLeaf range = b'.ensureLeaf range)
      (i : Inline) : b.addInline i range = b'.addInline i range := by
    rw [addInline, addInline, hleaf]
  have enter {range : ByteRange} {b b' : Builder}
      (hleaf : b.ensureLeaf range = b'.ensureLeaf range) (kind : FrameKind) :
      b.enterFrame kind range = b'.enterFrame kind range := by
    rw [enterFrame, enterFrame, hleaf]
  cases h with
  | @text _ range content hrange =>
    obtain ⟨lines, cursor', hcursor', hleaf⟩ := opened hrange
    exact ⟨range.start, lines, cursor', hrange.start, hcursor',
      congrArg (Option.bind · _) (congrArg (Option.bind _) (funext fun raw =>
        congrArg (Option.bind _) (funext fun before => add hleaf _)))⟩
  | @code _ range content hrange =>
    obtain ⟨lines, cursor', hcursor', hleaf⟩ := opened hrange
    exact ⟨range.start, lines, cursor', hrange.start, hcursor',
      congrArg (Option.bind · _) (add hleaf _)⟩
  | @markup _ range tag hrange =>
    obtain ⟨lines, cursor', hcursor', hleaf⟩ := opened hrange
    exact ⟨range.start, lines, cursor', hrange.start, hcursor',
      congrArg (Option.bind · _) (add hleaf _)⟩
  | @lineBreak _ range hard hrange =>
    obtain ⟨lines, cursor', hcursor', hleaf⟩ := opened hrange
    refine ⟨range.start, lines, cursor', hrange.start, hcursor', ?_⟩
    cases hard with
    | false | true =>
      exact congrArg (Option.bind · _) (congrArg (Option.bind _) (funext fun raw => add hleaf _))
  | @container _ range _ tag left hrange hchildren =>
    obtain ⟨lines, cursor', hcursor', hleaf⟩ := opened hrange
    refine ⟨range.start, lines, cursor', hrange.start, hcursor', congrArg (Option.bind · _) ?_⟩
    rcases tag with _ | _ | _ | ⟨_ | _, _, _, _⟩
    case emphasis | strong | strikethrough =>
      exact congrArg (Option.bind _) (funext fun rest => enter hleaf _)
    case link.false | link.true => exact enter hleaf _

theorem Waits.inline {n : Nat} {run : List InlineTree} {leaf : Option Leaf} {t : InlineTree}
    (h : Waits source options run leaf) (ht : t.Fits source n)
    (hdepth : n ≤ options.maxDepth) (hcursor : IsPosition source cursor)
    (containers : List Container) :
    ∃ leaf' cursor', Waits source options (run ++ [t]) leaf' ∧ IsPosition source cursor' ∧
      (still source options containers leaf cursor).run t.events =
        some (still source options containers leaf' cursor') := by
  have adds {start stop cursor : Nat} (lines : Option (List Line))
      (hstart : IsPosition source start) (hstop : IsPosition source stop) (hle : start ≤ stop) :
      ∃ leaf', Waits source options (run ++ [t]) leaf' ∧
        (still source options containers (some (.holding (.paragraph true) start stop lines
          (InlineTree.listInlines source options run))) cursor).run t.events =
        some (still source options containers leaf' cursor) := by
    obtain ⟨stop', hle', hstop', hrun⟩ :=
      (ht.appends options).run_holding hdepth (.paragraph true) rfl hstop containers
        cursor start lines
    refine ⟨_, .paragraph lines (by simp) hstart hstop' (Nat.le_trans hle hle'), ?_⟩
    rw [InlineTree.listInlines_append, InlineTree.listInlines, InlineTree.listInlines,
      List.append_nil]
    exact hrun
  cases h with
  | nothing =>
    obtain ⟨start, lines, cursor', hstart, hcursor', hfresh⟩ :=
      run_fresh ht hcursor options containers
    obtain ⟨leaf', hleaf', hrun⟩ := adds lines hstart hstart (Nat.le_refl start)
    exact ⟨leaf', cursor', hleaf', hcursor', hfresh.trans hrun⟩
  | paragraph lines _ hstart hstop hle =>
    obtain ⟨leaf', hleaf', hrun⟩ := adds lines hstart hstop hle
    exact ⟨leaf', cursor, hleaf', hcursor, hrun⟩

end Builder

end MarkdownSpans
