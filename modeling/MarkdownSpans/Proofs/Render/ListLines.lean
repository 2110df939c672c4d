import Mathlib.Data.Nat.Basic
import MarkdownSpans.Proofs.Render.Edits

/-!
# The text of a list

A list of paragraphs is written as the text that one would expect: each item has its marker before
its first line and as many spaces as the marker is wide before its other lines, and the items of a
loose list are set apart by default terminators (`Pass.render_plainList`). Items are numbered up to
the greatest number of 64 bits, which all further items have, and the width of a number is that of
its numeral.
-/

namespace MarkdownSpans

/-! ### Numbers -/

/-- Digits are counted as they are written. -/
theorem digitCount_eq_length (n : Nat) : digitCount n = (toString n).length := by
  have length (n : Nat) : (toString n).length = (Nat.toDigits 10 n).length := by
    rw [Nat.toString_eq_ofList_toDigits, String.length_ofList]
  rw [length]
  induction n using digitCount.induct with
  | case1 n small => rw [digitCount, if_pos small, Nat.toDigits_of_lt_base small]; rfl
  | case2 n large ih =>
    have carry : 10 ≤ n := Nat.le_of_not_lt large
    rw [digitCount, if_neg large, Nat.toDigits_of_base_le (by decide) carry, List.length_append, ih]
    rfl

/-- A number that is read fits a word. -/
theorem le_maxWord_of_word? {text : String} {n : Nat} (h : word? text = some n) : n ≤ maxWord := by
  obtain ⟨fits, value⟩ := Option.ite_none_right_eq_some.1 h
  obtain rfl := Option.some.inj value
  exact of_decide_eq_true (Bool.and_eq_true_iff.1 fits).2

namespace ListStyle

/-- The number of the first item: what the start says, and zero if that is no number of 64 bits. -/
def startNumber (style : ListStyle) : Nat := (style.start.bind word?).getD 0

/-- The number of an item by its place. -/
def numberAt (style : ListStyle) (n : Nat) : Nat := min (style.startNumber + n) maxWord

/-- The marker of an item by its place, with the space behind it. -/
def markerAt (style : ListStyle) (n : Nat) : String :=
  if style.ordered then
    toString (style.numberAt n) ++ String.singleton style.delimiter ++ " "
  else
    String.singleton style.bullet ++ " "

theorem startNumber_le (style : ListStyle) : style.startNumber ≤ maxWord := by
  unfold startNumber
  cases hstart : style.start.bind word? with
  | none => exact Nat.zero_le _
  | some n =>
    obtain ⟨text, -, htext⟩ := Option.bind_eq_some_iff.1 hstart
    exact le_maxWord_of_word? htext

theorem numberAt_zero (style : ListStyle) : style.numberAt 0 = style.startNumber :=
  Nat.min_eq_left style.startNumber_le

/-- The place of an item in a list, as far as its number is written. -/
def Counts (style : ListStyle) (index n : Nat) : Prop :=
  style.ordered = true → index = style.numberAt n

variable {style : ListStyle} {index n : Nat}

theorem counts_firstIndex (hdecimal : style.ordered = true → style.bullet = '1') :
    style.Counts (Program.firstIndex style) 0 := by
  intro ordered
  have decimal : style.isDecimal = true := by simp [isDecimal, ordered, hdecimal ordered]
  rw [Program.firstIndex, if_pos decimal, numberAt_zero, startNumber]

/-- Numbers go on by one up to the greatest. -/
theorem Counts.next (hdecimal : style.ordered = true → style.bullet = '1')
    (h : style.Counts index n) : style.Counts (Program.nextIndex style index) (n + 1) := by
  intro ordered
  have decimal : style.isDecimal = true := by simp [isDecimal, ordered, hdecimal ordered]
  rw [Program.nextIndex, if_pos decimal, h ordered, numberAt, numberAt]
  omega

end ListStyle

/-! ### Items of one paragraph -/

/-- A line of text and the break behind it, soft or hard. -/
structure BrokenLine where
  text : String
  newline : Newline
  hard : Bool
  ended : newline ≠ .absent

namespace BrokenLine

def line (l : BrokenLine) : Line := ⟨l.text, l.newline⟩

def inlines (l : BrokenLine) : List Inline := [.literal l.text, .lineBreak l.newline l.hard]

end BrokenLine

/-- No white space was recorded around a block, and no lines; behind it there are none. -/
structure Trivia.IsEmpty (t : Trivia) : Prop where
  before : t.before = ""
  after : t.after = ""
  linesBefore : t.linesBefore.getD [] = []
  linesAfter : t.linesAfter = some []

/-- An item that holds one paragraph of at least one line. -/
structure PlainItem where
  first : BrokenLine
  more : List BrokenLine
  /-- What was recorded around the paragraph. -/
  inner : Trivia
  /-- What was recorded around the item. -/
  outer : Trivia
  inner_empty : inner.IsEmpty
  outer_empty : outer.IsEmpty

namespace PlainItem

def lines (i : PlainItem) : List BrokenLine := i.first :: i.more

def item (i : PlainItem) : ListItem :=
  .mk [.paragraph (i.lines.flatMap BrokenLine.inlines) i.inner] i.outer

/-- The text of an item with this marker: the marker stands before the first line, and as many
spaces before each of the others. -/
def text (marker : String) (i : PlainItem) : String :=
  marker ++ i.first.line.written ++ String.join (i.more.map fun l =>
    String.ofList (List.replicate marker.length ' ') ++ l.line.written)

end PlainItem

namespace ListStyle

/-- The text of the items of a list, the first of which stands at this place: the items in order,
and in a loose list a terminator between them. -/
def plainText (style : ListStyle) (newline : Newline) (n : Nat) (items : List PlainItem) : String :=
  String.join (items.mapIdx fun m i => i.text (style.markerAt (n + m)) ++
    if style.loose ∧ m + 1 < items.length then newline.text else "")

theorem plainText_cons (style : ListStyle) (newline : Newline) (n : Nat) (i : PlainItem)
    (rest : List PlainItem) :
    style.plainText newline n (i :: rest) =
      i.text (style.markerAt n) ++ (if style.loose && !rest.isEmpty then newline.text else "") ++
        style.plainText newline (n + 1) rest := by
  have separated : (style.loose = true ∧ 0 + 1 < (i :: rest).length) ↔
      (style.loose && !rest.isEmpty) = true := by
    cases rest <;> simp
  have shifted : (fun (m : Nat) (j : PlainItem) => j.text (style.markerAt (n + (m + 1))) ++
      if style.loose = true ∧ m + 1 + 1 < (i :: rest).length then newline.text else "") =
      fun m j => j.text (style.markerAt (n + 1 + m)) ++
        if style.loose = true ∧ m + 1 < rest.length then newline.text else "" := by
    funext m j
    rw [← Nat.add_right_comm n m 1, Nat.add_assoc n m 1, List.length_cons]
    simp
  rw [plainText, List.mapIdx_cons, String.join_cons, shifted]
  simp only [separated]
  rfl

end ListStyle

/-! ### Changes of the output -/

namespace Buffer

/-- Lines under leads that do not change have all the same leads. -/
theorem writeLines_of_constant {b : Buffer} (hstart : b.atLineStart = true)
    (hconstant : b.indents.map Indent.advance = b.indents) {ls : List Line}
    (hls : ∀ l ∈ ls, l.newline ≠ .absent) :
    b.writeLines ls = b.append (String.join (ls.map fun l => b.pendingLead ++ l.written)) := by
  induction ls generalizing b with
  | nil => exact b.append_empty.symm
  | cons l rest ih =>
    obtain ⟨hl, hrest⟩ := List.forall_mem_cons.1 hls
    have first : (b.write l.text).writeLine l.newline = b.append (b.pendingLead ++ l.written) := by
      rw [writeLine_write_of_lineStart hstart hl, hconstant]
      rfl
    show ((b.write l.text).writeLine l.newline).writeLines rest = _
    rw [first, ih (b := b.append _) hstart hconstant hrest, append_append, List.map_cons,
      String.join_cons]
    rfl

/-- Append text to a line that goes on behind it. -/
def midLine (b : Buffer) (text : String) : Buffer := { b.append text with atLineStart := false }

theorem midLine_midLine (b : Buffer) (s t : String) :
    (b.midLine s).midLine t = b.midLine (s ++ t) := by
  simp [midLine, append, String.append_assoc, Nat.add_assoc]

/-- Without open containers text is appended to the line. -/
theorem write_of_nil {b : Buffer} (h : b.indents = []) {text : String} (hne : text ≠ "") :
    b.write text = b.midLine text := by
  have filled : text.isEmpty = false := by simpa using hne
  rw [write, push, flushIndent_of_nil h, filled]
  rfl

/-- Without open containers a character is appended to the line. -/
theorem writeChar_of_nil {b : Buffer} (h : b.indents = []) (c : Char) :
    b.writeChar c = b.midLine (.singleton c) := by
  have written : (String.singleton c).isEmpty = false := by simp
  rw [writeChar, flushIndent_of_nil h, push, written]
  rfl

/-- The first line stands behind the marker, the others behind spaces instead of it. -/
theorem writeLines_item {b : Buffer} (hstart : b.atLineStart = true) (hindents : b.indents = [])
    (i : PlainItem) (marker : String) :
    (((b.midLine marker).pushIndent (.spaces marker.length)).writeLines
      (i.lines.map BrokenLine.line)).popIndent = b.append (i.text marker) := by
  let inside : Buffer := { b with indents := [.spaces marker.length] }
  have first : (((b.midLine marker).pushIndent (.spaces marker.length)).write
      i.first.line.text).writeLine i.first.line.newline =
      inside.append (marker ++ i.first.line.written) := by
    rw [writeLine_write_of_open rfl i.first.ended]
    simp [midLine, pushIndent, append, inside, hstart, hindents, String.append_assoc,
      Nat.add_assoc]
  have ended : ∀ l ∈ i.more.map BrokenLine.line, l.newline ≠ .absent := by
    intro l hl
    obtain ⟨l, -, rfl⟩ := List.mem_map.1 hl
    exact l.ended
  have pending (s : String) :
      (inside.append s).pendingLead = String.ofList (List.replicate marker.length ' ') := by
    simp [pendingLead, inside, append, Indent.spaces, Indent.lead]
  show (((Buffer.write _ i.first.line.text).writeLine i.first.line.newline).writeLines
    (i.more.map BrokenLine.line)).popIndent = _
  rw [first, writeLines_of_constant (b := inside.append _) hstart rfl ended, append_append, pending,
    List.map_map]
  show { b.append (i.text marker) with indents := [] } = b.append (i.text marker)
  rw [← hindents]
  rfl

end Buffer

/-! ### Programs at the start of a line -/

namespace Program

variable {pass : Pass} {k : Nat} {newline : Newline} {p q : Program} {s t : String}

/-- If there is room for `k` nested nodes, the program appends this text where a line starts and no
container is open, and changes nothing else; lines without terminator end in this one. -/
def Prints (pass : Pass) (k : Nat) (newline : Newline) (p : Program) (text : String) : Prop :=
  ∀ levels (c : Context), k ≤ levels → c.depth + k ≤ pass.options.maxDepth →
    c.buffer.newline = newline → c.buffer.atLineStart = true → c.buffer.indents = [] →
    p.run pass (pass.render levels) c = (c.mapBuffer (·.append text)).ok

namespace Prints

theorem of_edits {f : Buffer → Buffer} (hp : Edits pass k p f)
    (hf : ∀ b : Buffer, b.newline = newline → b.atLineStart = true → b.indents = [] →
      f b = b.append t) : Prints pass k newline p t := by
  intro levels c hlevels hdepth hnewline hstart hindents
  rw [hp levels c hlevels hdepth, Context.mapBuffer, hf c.buffer hnewline hstart hindents]
  rfl

theorem done : Prints pass k newline .done "" :=
  of_edits .done fun b _ _ _ => b.append_empty.symm

theorem seq (hp : Prints pass k newline p s) (hq : Prints pass k newline q t) :
    Prints pass k newline (.seq p q) (s ++ t) := by
  intro levels c hlevels hdepth hnewline hstart hindents
  rw [run, hp levels c hlevels hdepth hnewline hstart hindents]
  have second := hq levels (c.mapBuffer (·.append s)) hlevels hdepth hnewline hstart hindents
  rw [Context.mapBuffer, Context.mapBuffer, Buffer.append_append] at second
  exact second

theorem withCompact (value : Bool) (hp : Prints pass k newline p t) :
    Prints pass k newline (.withCompact value p) t := by
  intro levels c hlevels hdepth hnewline hstart hindents
  rw [run, hp levels { c with compact := value } hlevels hdepth hnewline hstart hindents]
  rfl

/-- At the start of a line there is no line to be ended. -/
theorem ensureLine : Prints pass k newline .ensureLine "" :=
  of_edits (fun _ _ _ _ => rfl) fun b _ hstart _ => by
    rw [Buffer.ensureLine, if_pos hstart, b.append_empty]

theorem writeDefaultLine : Prints pass k newline .writeDefaultLine newline.text := by
  refine of_edits (fun _ _ _ _ => rfl) fun b hnewline hstart hindents => ?_
  rw [Buffer.writeDefaultLine, hnewline, Buffer.writeLine, Buffer.flushIndent_of_nil hindents]
  split
  next h =>
    obtain rfl : newline = .absent := beq_iff_eq.1 h
    exact b.append_empty.symm
  next =>
    rw [Buffer.push_with, ← hstart]
    rfl

theorem linesBefore {trivia : Trivia} (h : trivia.IsEmpty) :
    Prints pass k newline (.linesBefore trivia) "" := by
  rw [Program.linesBefore, h.linesBefore]
  exact done

theorem linesAfter {trivia : Trivia} (h : trivia.IsEmpty) :
    Prints pass k newline (.linesAfter trivia) "" := by
  rw [Program.linesAfter, h.linesAfter]
  exact done

theorem withLast (value : Bool) (hp : Prints pass k newline p t) :
    Prints pass k newline (.withLast value p) t := by
  intro levels c hlevels hdepth hnewline hstart hindents
  rw [run, hp levels { c with last := value } hlevels hdepth hnewline hstart hindents]
  rfl

theorem separator (style : ListStyle) (isLast : Bool) :
    Prints pass k newline (.separator style isLast)
      (if style.loose && !isLast then newline.text else "") := by
  unfold Program.separator
  split
  · exact ensureLine.seq writeDefaultLine
  · exact done

end Prints

/-- The marker of an item and the space after it are appended to the line. -/
theorem run_marker {style : ListStyle} {index n : Nat} (hindex : style.Counts index n)
    (renderNode : Node → Context → Outcome) {c : Context} (hindents : c.buffer.indents = []) :
    (marker style index).run pass renderNode c =
      (c.mapBuffer (·.midLine (style.markerAt n))).ok := by
  have still (s : String) : (c.buffer.midLine s).indents = [] := hindents
  cases hordered : style.ordered with
  | true =>
    obtain rfl := hindex hordered
    have number : toString (style.numberAt n) ≠ "" := by simp
    rw [marker, ListStyle.markerAt, if_pos hordered, if_pos hordered]
    simp only [run, Outcome.andThen, Context.ok, Context.mapBuffer]
    rw [Buffer.write_of_nil hindents number, Buffer.writeChar_of_nil (still _),
      Buffer.midLine_midLine, Buffer.writeChar_of_nil (still _), Buffer.midLine_midLine]
    rfl
  | false =>
    have bullet : ¬style.ordered = true := by simp [hordered]
    rw [marker, ListStyle.markerAt, if_neg bullet, if_neg bullet]
    simp only [run, Outcome.andThen, Context.ok, Context.mapBuffer]
    rw [Buffer.writeChar_of_nil hindents, Buffer.writeChar_of_nil (still _),
      Buffer.midLine_midLine]
    rfl

/-- The other lines of an item are indented by the width of its marker. -/
theorem length_markerAt {style : ListStyle} {index n : Nat} (hindex : style.Counts index n) :
    markerWidth style index = (style.markerAt n).length := by
  unfold markerWidth ListStyle.markerAt
  split
  next hordered =>
    rw [hindex hordered, digitCount_eq_length, String.length_append, String.length_append,
      String.length_singleton]
    rfl
  next =>
    rw [String.length_append, String.length_singleton]
    rfl

/-- An item writes the lines of its paragraph. -/
theorem Edits.plainItem (hrules : pass.rules = .standard) (i : PlainItem) :
    Edits pass 3 (.render (.item i.item)) (·.writeLines (i.lines.map BrokenLine.line)) := by
  have content : Edits pass 1 (.inlines (i.lines.flatMap BrokenLine.inlines)) _ :=
    brokenLines hrules BrokenLine.line BrokenLine.hard i.lines
  have paragraph := content.paragraph hrules i.inner_empty.linesBefore i.inner_empty.before
    i.inner_empty.linesAfter
  refine .render hrules rfl (.of_eq ((lines _).seq (paragraph.withLast.seq done)) fun b => ?_)
  show (Buffer.writeLines (i.outer.linesBefore.getD []) b).writeLines _ = _
  rw [i.outer_empty.linesBefore, List.nil_append, List.append_nil]
  rfl

namespace Prints

/-- An item of a list is printed as its text. -/
theorem item (hrules : pass.rules = .standard) {style : ListStyle} {index n : Nat}
    (hindex : style.Counts index n) (i : PlainItem) (hq : Prints pass 3 newline q t) :
    Prints pass 3 newline
      (.seq (.marker style index)
        (.seq (.indent (.spaces (markerWidth style index)) (.render (.item i.item))) q))
      (i.text (style.markerAt n) ++ t) := by
  intro levels c hlevels hdepth hnewline hstart hindents
  have printed := Buffer.writeLines_item hstart hindents i (style.markerAt n)
  rw [← length_markerAt hindex] at printed
  have content : (Program.indent _ _).run pass (pass.render levels) (c.mapBuffer _) = _ :=
    (Edits.plainItem hrules i).indent (.spaces (markerWidth style index)) levels
      (c.mapBuffer (·.midLine (style.markerAt n))) hlevels hdepth
  rw [run, run_marker hindex _ hindents]
  show ((Program.indent _ _).run pass (pass.render levels) (c.mapBuffer _)).andThen _ = _
  rw [content]
  show q.run pass (pass.render levels) { c with
    buffer := Buffer.popIndent (Buffer.writeLines _ ((c.buffer.midLine _).pushIndent _)) } = _
  rw [printed]
  have behind := hq levels (c.mapBuffer (·.append (i.text (style.markerAt n)))) hlevels hdepth
    hnewline hstart hindents
  refine behind.trans ?_
  rw [Context.mapBuffer, Context.mapBuffer, Context.mapBuffer, Buffer.append_append]

/-- **The items of a list are printed one after another**, each with its own number. -/
theorem items (hrules : pass.rules = .standard) {style : ListStyle}
    (hdecimal : style.ordered = true → style.bullet = '1') {index n : Nat}
    (hindex : style.Counts index n) (is : List PlainItem) :
    Prints pass 3 newline (.items style index (is.map PlainItem.item))
      (style.plainText newline n is) := by
  induction is generalizing index n with
  | nil => exact done
  | cons i rest ih =>
    have others := ih (hindex.next hdecimal)
    have printed : Prints pass 3 newline (.items style index ((i :: rest).map PlainItem.item)) _ :=
      ensureLine.seq <| item hrules hindex i <| (withLast _ (linesAfter i.outer_empty)).seq <|
        (separator style _).seq (others.seq done)
    rw [style.plainText_cons]
    simpa [String.append_assoc] using printed

end Prints

end Program

namespace Pass

/-- **The text of a list of plain items.** Let a list have bullets or decimal numerals and hold
items of one paragraph each, and let there be room for the nodes in it. Where a line starts and no
container is open, it is rendered as the text of its items, and nothing else changes. -/
theorem render_plainList {pass : Pass} (hrules : pass.rules = .standard) {style : ListStyle}
    (hdecimal : style.ordered = true → style.bullet = '1') (items : List PlainItem)
    {trivia : Trivia} (htrivia : trivia.IsEmpty) {levels : Nat} {c : Context}
    (hlevels : 4 ≤ levels) (hdepth : c.depth + 4 ≤ pass.options.maxDepth)
    (hstart : c.buffer.atLineStart = true) (hindents : c.buffer.indents = []) :
    pass.render levels (.block (.list style (items.map PlainItem.item) trivia)) c =
      (c.mapBuffer (·.append (style.plainText c.buffer.newline 0 items))).ok := by
  obtain ⟨k, rfl⟩ := Nat.exists_eq_add_of_le' hlevels
  have printed : Program.Prints pass 3 c.buffer.newline
      (.list style (items.map PlainItem.item) trivia) _ :=
    .seq .ensureLine <| .seq (.withCompact _ (.seq (.linesBefore htrivia)
      (.items hrules hdecimal (style.counts_firstIndex hdecimal) items))) <|
      .seq (.linesAfter htrivia) .done
  have listed := printed (k + 3) c.enterNode (by omega)
    (by show c.depth + 1 + 3 ≤ _; omega) rfl hstart hindents
  rw [String.empty_append, String.empty_append, String.empty_append, String.append_empty] at listed
  rw [Pass.render_standard hrules rfl (by omega)]
  show (Program.run pass _ (.list style _ trivia) _).mapContext _ = _
  rw [listed]
  rfl

/-- The lines of the second item are indented by one space more than those of the first, also the
one without text. -/
theorem render_plainList_carry :
    let style : ListStyle :=
      { ordered := true, bullet := '1', delimiter := ')', start := some " +9\t", loose := true }
    let empty : Trivia := { linesBefore := some [], linesAfter := some [] }
    let known : empty.IsEmpty := ⟨rfl, rfl, rfl, rfl⟩
    let items : List PlainItem :=
      [⟨⟨"a", .lf, true, nofun⟩, [⟨"b", .crlf, false, nofun⟩], empty, empty, known, known⟩,
        ⟨⟨"c", .cr, false, nofun⟩, [⟨"", .lf, false, nofun⟩, ⟨"d", .lf, false, nofun⟩], empty,
          .tracked, known, ⟨rfl, rfl, rfl, rfl⟩⟩]
    let c : Context := .start { newline := .crlf }
    style.plainText .crlf 0 items = "9) a\n   b\r\n\r\n10) c\r    \n    d\n" ∧
      Pass.render { rules := .standard } 4
          (.block (.list style (items.map PlainItem.item) empty)) c =
        (c.mapBuffer (·.append (style.plainText .crlf 0 items))).ok := by
  intro style empty known items c
  refine ⟨by decide +kernel, ?_⟩
  exact render_plainList rfl (fun _ => rfl) items known (by decide) (by decide) rfl rfl

end Pass

end MarkdownSpans
