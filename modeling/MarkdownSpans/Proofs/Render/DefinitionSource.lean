import MarkdownSpans.Proofs.Render.Congruence
import MarkdownSpans.Proofs.Render.Spelled
import MarkdownSpans.Proofs.Tree.ClosedDefinition

/-!
# Link definitions rendered as they stood

A link definition that was read from a text is rendered, where no container is open, as the lines
before it, that text and its terminator, exactly if the text is a closed definition behind white
space (`LinkDefinition.rendered_read_iff`).
-/

namespace MarkdownSpans

open Line (joined)

namespace LinkDefinition

/-- The rule of definitions writes the definition as it is recorded and does nothing else. -/
theorem exists_buffer {d : LinkDefinition} (h : d.trivia.linesAfter = some []) (pass : Pass)
    (renderNode : Node → Context → Outcome) {c : Context} (hindents : c.buffer.indents = []) :
    ∃ buffer : Buffer,
      (Program.linkDefinition d).run pass renderNode c = ({ c with buffer } : Context).ok ∧
        c.buffer.Gains buffer d.spelled := by
  have recorded : d.trivia.linesAfter.isSome := by rw [h]; rfl
  obtain ⟨f, hf⟩ := Program.MapsBuffer.linkDefinition recorded
  refine ⟨f c.buffer, hf pass renderNode c, ?_⟩
  -- What is written does not depend on the depth, so it is what is written at the top.
  have typed : Program.Types pass 0 (.linkDefinition d) d.spelled := .linkDefinition h
  obtain ⟨buffer, hrun, hgains⟩ :=
    typed 0 { c with depth := 0 } (Nat.le_refl 0) (Nat.zero_le _) hindents
  rw [hf] at hrun
  have written : f c.buffer = buffer := congrArg (·.context.buffer) hrun
  rwa [written]

/-- **A definition is rendered as its source exactly if it is closed.** Where no container is open,
the rule of definitions appends to the output the lines before the definition, the text that the
definition was read from and its terminator if and only if this text is white space and a definition
whose label is closed, as are its address and its title if they are opened. -/
theorem rendered_read_iff (raw : String) (newline : Newline) (linesBefore : Option (List Line))
    (pass : Pass) (renderNode : Node → Context → Outcome) (c : Context)
    (hindents : c.buffer.indents = []) :
    ∃ buffer : Buffer,
      (standardRule .linkDefinition (.block (.linkDefinition (read raw newline linesBefore)))).run
          pass renderNode c = ({ c with buffer } : Context).ok ∧
        buffer.indents = [] ∧
        (buffer.text = c.buffer.text ++ String.ofList (joined (linesBefore.getD [])) ++ raw ++
            newline.text ↔
          ∃ before definition, raw.toList = before ++ definition ∧
            (∀ ch ∈ before, isSpace ch = true) ∧ ClosedDefinition definition) := by
  obtain ⟨buffer, hrun, hgains⟩ :=
    exists_buffer (d := read raw newline linesBefore) rfl pass renderNode hindents
  refine ⟨buffer, hrun, hgains.indents, ?_⟩
  have closed := chars_read_iff raw.toList newline linesBefore
  rw [String.ofList_toList] at closed
  rw [← closed, hgains.text, ← String.toList_inj]
  have trivia : (read raw newline linesBefore).trivia.linesBefore = linesBefore := rfl
  have terminator : (read raw newline linesBefore).newline = newline := rfl
  simp [spelled, trivia, terminator, Newline.toList_text]

/-- A definition over two lines behind a blank one, with an escaped bracket, an escaped delimiter
and white space of more than one byte. -/
theorem rendered_read_iff_broken :
    let raw : String := "  " ++ "[a\\]b]:\n\u3000<c d>\u2003'it\\'s' x"
    let c : Context := .start {}
    c.buffer.indents = [] ∧
      ∃ buffer : Buffer,
        (standardRule .linkDefinition
            (.block (.linkDefinition (read raw .crlf (some [⟨" ", .lf⟩]))))).run
            { rules := .standard } (fun _ c => c.ok) c = ({ c with buffer } : Context).ok ∧
          buffer.text = " \n" ++ raw ++ "\r\n" := by
  intro raw c
  obtain ⟨buffer, hrun, -, hsource⟩ := rendered_read_iff raw .crlf (some [⟨" ", .lf⟩])
    { rules := .standard } (fun _ c => c.ok) c rfl
  refine ⟨rfl, buffer, hrun, hsource.2 ?_⟩
  have tail : ClosedTail "\n\u3000<c d>\u2003'it\\'s' x".toList := by
    refine ⟨fun inner h => ?_, fun opener inner closer h hcloser => ?_⟩
    · have address : inner = "c d>\u2003'it\\'s' x".toList := (List.cons.inj h).2.symm
      rw [address]
      decide
    · obtain ⟨rfl, rfl⟩ : '\'' = opener ∧ "it\\'s' x".toList = inner := List.cons.inj h
      obtain rfl : '\'' = closer := Option.some.inj hcloser
      exact ⟨"it\\'s".toList, " x".toList, rfl, by simp [Escaped]⟩
  exact ⟨"  ".toList, _, String.toList_append, List.all_eq_true.1 (by decide), "a\\]b".toList, _,
    rfl, by simp [Escaped], tail⟩

end LinkDefinition

end MarkdownSpans
