import Mathlib.Data.List.Chain
import MarkdownSpans.Proofs.Text.Lines

/-!
# The lines of a text as a normal form

The terminators `\n`, `\r\n` and `\r` overlap, so that different lists of lines may be written as
the same text: a line that ends with `\r` and an empty one that ends with `\n` are written like one
line that ends with `\r\n`, and empty lines without terminator are not seen at all.
`Line.Canonical` excludes these lists and nothing else: `Line.split` and writing line by line are
inverse to each other between texts and canonical lists of lines (`Line.split_eq_iff_canonical`).
-/

namespace MarkdownSpans

/-- The terminator behind a text without line ends is found again. -/
theorem Newline.detect_append {text : String} (h : Unbroken text.toList) (n : Newline) :
    detect (text ++ n.text) = n := by
  have found : ofReversed (n.chars.reverse ++ text.toList.reverse) = n := by
    cases hrev : text.toList.reverse with
    | nil => cases n <;> rfl
    | cons c rest =>
      have inside : isLineEnd c = false := h c (List.mem_reverse.1 (hrev ▸ .head _))
      obtain ⟨hlf, hcr⟩ : c ≠ '\n' ∧ c ≠ '\r' := by simpa [isLineEnd] using inside
      cases n <;> simp [chars, ofReversed, hlf, hcr]
  rwa [detect, String.toList_append, toList_text, List.reverse_append]

namespace Line

/-- Lines that no other cut of their text has: each line goes up to the first line end and begins
behind a whole terminator, and no line is nothing at all. -/
structure Canonical (lines : List Line) : Prop where
  unbroken : ∀ line ∈ lines, Unbroken line.text.toList
  /-- Only the last line may have no terminator. -/
  ended : ∀ line ∈ lines.dropLast, line.newline ≠ .absent
  /-- A last line without terminator is not empty. -/
  filled : ∀ line ∈ lines.getLast?, line.newline = .absent → line.text ≠ ""
  /-- No `\r` stands before the `\n` of an empty line. -/
  apart : lines.IsChain fun line next => line.newline = .cr → next ≠ blank .lf

namespace Canonical

variable {line : Line} {lines rest : List Line}

instance (lines : List Line) : Decidable (Canonical lines) :=
  decidable_of_iff
    ((∀ line ∈ lines, Unbroken line.text.toList) ∧
      (∀ line ∈ lines.dropLast, line.newline ≠ .absent) ∧
      (∀ line ∈ lines.getLast?, line.newline = .absent → line.text ≠ "") ∧
      lines.IsChain fun line next => line.newline = .cr → next ≠ blank .lf)
    ⟨fun ⟨h₁, h₂, h₃, h₄⟩ => ⟨h₁, h₂, h₃, h₄⟩, fun ⟨h₁, h₂, h₃, h₄⟩ => ⟨h₁, h₂, h₃, h₄⟩⟩

theorem nil : Canonical [] := ⟨by simp, by simp, by simp, .nil⟩

/-- What the lines behind a line must be like for it. -/
theorem cons_iff : Canonical (line :: rest) ↔
    Unbroken line.text.toList ∧ (line.newline = .absent → rest = [] ∧ line.text ≠ "") ∧
      (line.newline = .cr → rest.head? ≠ some (blank .lf)) ∧ Canonical rest := by
  constructor
  · rintro ⟨unbroken, ended, filled, apart⟩
    obtain ⟨hline, hrest⟩ := List.forall_mem_cons.1 unbroken
    obtain ⟨hnext, hapart⟩ := List.isChain_cons.1 apart
    refine ⟨hline, fun habsent => ?_, fun hcr hhead => hnext _ hhead hcr rfl, hrest, ?_, ?_, hapart⟩
    · cases rest with
      | nil => exact ⟨rfl, filled line rfl habsent⟩
      | cons next more => exact absurd habsent (ended line (.head _))
    · cases rest with
      | nil => simp
      | cons next more => exact fun l hl => ended l (.tail _ hl)
    · cases rest with
      | nil => simp
      | cons next more => simpa using filled
  · rintro ⟨hline, habsent, hcr, unbroken, ended, filled, apart⟩
    refine ⟨List.forall_mem_cons.2 ⟨hline, unbroken⟩, ?_, ?_, List.isChain_cons.2 ⟨?_, apart⟩⟩
    · cases rest with
      | nil => simp
      | cons next more =>
        exact List.forall_mem_cons.2 ⟨fun h => List.cons_ne_nil _ _ (habsent h).1, ended⟩
    · cases rest with
      | nil =>
        rintro l ⟨rfl⟩ h
        exact (habsent h).2
      | cons next more => simpa using filled
    · rintro next hnext h rfl
      exact hcr h hnext

end Canonical

namespace Chained

variable {lines : List Line}

/-- Chained lines are written with a `\n` first only if the first of them is empty and ends so. -/
theorem head?_joined (h : Chained lines) :
    (joined lines).head? = some '\n' ↔ lines.head? = some (blank .lf) := by
  cases lines with
  | nil => simp
  | cons line rest =>
    obtain ⟨text, newline⟩ := line
    obtain ⟨hunbroken, hne, -, -⟩ := h
    simp only [joined_cons, chars, List.head?_cons, Option.some.injEq]
    cases hchars : text.toList with
    | nil =>
      obtain rfl := String.toList_eq_nil_iff.1 hchars
      cases newline with
      | absent => exact absurd rfl hne
      | lf | crlf | cr => simp [Newline.chars, blank]
    | cons c cs =>
      -- A character of the text is no line end.
      have inside : isLineEnd c = false := hunbroken c (by simp [hchars])
      have first : c ≠ '\n' := by
        rintro rfl
        cases inside
      have filled : text ≠ "" := by
        rintro rfl
        cases hchars
      simp [first, blank, filled]

theorem iff_canonical : Chained lines ↔ Canonical lines := by
  induction lines with
  | nil => exact ⟨fun _ => .nil, fun _ => trivial⟩
  | cons line rest ih =>
    rw [Canonical.cons_iff, ← ih]
    constructor
    · rintro ⟨hunbroken, hne, hends, hrest⟩
      refine ⟨hunbroken, fun habsent => ⟨hrest.eq_nil_of_joined (hends.absent habsent), ?_⟩,
        fun hcr hhead => hends.cr hcr (hrest.head?_joined.2 hhead), hrest⟩
      obtain ⟨text, newline⟩ := line
      rintro rfl
      exact hne (congrArg (Line.mk "") habsent)
    · rintro ⟨hunbroken, habsent, hcr, hrest⟩
      refine ⟨hunbroken, ?_,
        ⟨fun h => ?_, fun h hhead => hcr h (hrest.head?_joined.1 hhead)⟩, hrest⟩
      · rintro rfl
        exact (habsent rfl).2 rfl
      · rw [(habsent h).1, joined_nil]

end Chained

theorem toList_join_written (lines : List Line) :
    (String.join (lines.map written)).toList = joined lines := by
  induction lines with
  | nil => rfl
  | cons line rest ih =>
    rw [List.map_cons, String.join_cons, String.toList_append, ih, joined_cons, written,
      String.toList_append, Newline.toList_text, chars]

/-- **Splitting a text gives the one canonical list of lines that is written as the text**, and each
of the lines ends with the terminator that is found at its end. -/
theorem split_eq_iff_canonical (text : String) (lines : List Line) :
    (split text = lines ↔ Canonical lines ∧ String.join (lines.map written) = text) ∧
      ∀ line ∈ split text, Newline.detect line.written = line.newline := by
  have chained := (chained_split text).1
  refine ⟨⟨?_, ?_⟩, fun line hline => ?_⟩
  · rintro rfl
    refine ⟨Chained.iff_canonical.1 chained, String.toList_inj.1 ?_⟩
    rw [toList_join_written, (chained_split text).2]
  · rintro ⟨canonical, rfl⟩
    have found := (Chained.iff_canonical.2 canonical).split_joined
    rwa [← toList_join_written, String.ofList_toList] at found
  · obtain ⟨before, after, hcut⟩ := List.append_of_mem hline
    rw [hcut] at chained
    exact Newline.detect_append chained.unbroken line.newline

/-- Every terminator stands before every other one, and the last line has none. -/
theorem split_eq_iff_canonical_mixed :
    let lines : List Line := [blank .cr, ⟨"a", .cr⟩, blank .crlf, blank .lf, blank .cr, ⟨"b", .lf⟩,
      blank .crlf, ⟨"c", .absent⟩]
    let text := "\ra\r\r\n\n\rb\n\r\nc"
    split text = lines ∧ ⟨"a", .cr⟩ ∈ split text ∧ Newline.detect (written ⟨"a", .cr⟩) = .cr := by
  intro lines text
  have cut : split text = lines := (split_eq_iff_canonical text lines).1.2 ⟨by decide, by decide⟩
  have member : ⟨"a", .cr⟩ ∈ split text := by
    rw [cut]
    decide
  exact ⟨cut, member, (split_eq_iff_canonical text lines).2 _ member⟩

end Line

end MarkdownSpans
