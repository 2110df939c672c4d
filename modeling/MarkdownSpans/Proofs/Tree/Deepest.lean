import MarkdownSpans.Proofs.Render.Nested
import MarkdownSpans.Proofs.Tree.DepthCap

/-!
# The deepest documents

A document of a builder with limit `d` is rendered wherever `2 * d + 3` nodes may be nested in one
another (`Document.renders_of_capped`). No less will do: `d` quotes around a paragraph with `d`
spans of emphasis around a piece of code are as deep as that, and matching events build them.
-/

namespace MarkdownSpans

/-- Every container that is entered is left again, and no other is left. -/
inductive Balanced : List RangedEvent → Prop where
  | nil : Balanced []
  | cons {e : RangedEvent} {es : List RangedEvent} (henter : ∀ tag, e.event ≠ .enter tag)
    (hleave : ∀ kind, e.event ≠ .leave kind) (h : Balanced es) : Balanced (e :: es)
  | enclose {es es' : List RangedEvent} (tag : Tag) (range range' : ByteRange) (h : Balanced es)
    (h' : Balanced es') :
    Balanced (⟨.enter tag, range⟩ :: (es ++ ⟨.leave tag.kind, range'⟩ :: es'))

namespace Deepest

/-! ### The events and the tree -/

/-- The events of a container around others, on the source `*`. -/
def enclose (tag : Tag) (es : List RangedEvent) : List RangedEvent :=
  ⟨.enter tag, ⟨0, 1⟩⟩ :: (es ++ [⟨.leave tag.kind, ⟨0, 1⟩⟩])

/-- The events of a piece of code in `n` spans of emphasis. -/
def inlineEvents : Nat → List RangedEvent
  | 0 => [⟨.code "*", ⟨0, 1⟩⟩]
  | n + 1 => enclose .emphasis (inlineEvents n)

/-- The events of a paragraph in `n` quotes, with `m` spans of emphasis in it. -/
def blockEvents (m : Nat) : Nat → List RangedEvent
  | 0 => enclose .paragraph (inlineEvents m)
  | n + 1 => enclose .blockQuote (blockEvents m n)

/-- A piece of code in `n` spans of emphasis. -/
def inline : Nat → Inline
  | 0 => .codeSpan "*"
  | n + 1 => .emphasis '*' 1 [inline n]

/-- A paragraph in `n` quotes, with `m` spans of emphasis in it. -/
def block (m : Nat) : Nat → Block
  | 0 => .paragraph [inline m] .tracked
  | n + 1 => .quote [{}] [block m n] .tracked

theorem balanced_enclose {es : List RangedEvent} (tag : Tag) (h : Balanced es) :
    Balanced (enclose tag es) :=
  .enclose tag _ _ h .nil

theorem balanced_inlineEvents (n : Nat) : Balanced (inlineEvents n) := by
  induction n with
  | zero => exact .cons (fun tag h => nomatch h) (fun kind h => nomatch h) .nil
  | succ n ih => exact balanced_enclose .emphasis ih

theorem balanced_blockEvents (m n : Nat) : Balanced (blockEvents m n) := by
  induction n with
  | zero => exact balanced_enclose .paragraph (balanced_inlineEvents m)
  | succ n ih => exact balanced_enclose .blockQuote ih

/-! ### Building the tree -/

theorem run_enclose (tag : Tag) (es : List RangedEvent) (b : Builder) :
    b.run (enclose tag es) =
      (b.enter tag ⟨0, 1⟩).bind fun b₁ => (b₁.run es).bind (·.leave tag.kind ⟨0, 1⟩) := by
  unfold enclose
  rw [Builder.run_cons]
  refine congrArg _ (funext fun b₁ => ?_)
  rw [Builder.run_append]
  refine congrArg _ (funext fun b₂ => ?_)
  rw [Builder.run_cons]
  exact Option.bind_fun_some _

/-- The containers of `k` quotes that hold nothing so far. -/
def containers : Nat → List Container
  | 0 => [{ kind := .document }]
  | k + 1 => { kind := .quote 0 } :: containers k

/-- The state in `k` quotes that hold nothing so far. -/
def state (options : BuildOptions) (k : Nat) (leaf : Option Leaf) (cursor : Nat) : Builder where
  source := ['*']
  options := options
  containers := containers k
  leaf := leaf
  definitions := []
  cursor := cursor
  skippedContainers := 0
  skippedFrames := 0

variable {options : BuildOptions} {k : Nat}

theorem length_containers (k : Nat) : (containers k).length = k + 1 := by
  induction k with
  | zero => rfl
  | succ k ih => rw [containers, List.length_cons, ih]

theorem enter_emphasis {leaf : Leaf} (hroom : leaf.frames.length < options.maxDepth)
    (hstop : leaf.stop ≤ 1) :
    (state options k (some leaf) 0).enter .emphasis ⟨0, 1⟩ =
      some (state options k (some ({ leaf with stop := 1 }.openFrame (.emphasis '*' 1))) 0) := by
  have ensured : (state options k (some leaf) 0).ensureLeaf ⟨0, 1⟩ =
      some (state options k (some { leaf with stop := 1 }) 0) := by
    show some (state options k (some { leaf with stop := max leaf.stop 1 }) 0) = _
    rw [Nat.max_eq_right hstop]
  show (state options k (some leaf) 0).enterFrame (.emphasis '*' 1) ⟨0, 1⟩ = _
  unfold Builder.enterFrame
  rw [ensured]
  refine if_neg ?_
  simp [state, Nat.not_le_of_lt hroom]

theorem run_inlineEvents (n : Nat) {leaf : Leaf}
    (hroom : leaf.frames.length + n ≤ options.maxDepth) (hstop : leaf.stop ≤ 1) :
    (state options k (some leaf) 0).run (inlineEvents n) =
      some (state options k (some ({ leaf with stop := 1 }.push (inline n))) 0) := by
  induction n generalizing leaf with
  | zero =>
    show some (state options k (some ({ leaf with stop := max leaf.stop 1 }.push (inline 0))) 0) = _
    rw [Nat.max_eq_right hstop]
  | succ n ih =>
    -- The inner events add to the frame that is entered, and leaving it adds the frame.
    have hopen : ({ leaf with stop := 1 }.openFrame (.emphasis '*' 1)).frames.length + n ≤
        options.maxDepth := by
      show leaf.frames.length + 1 + n ≤ options.maxDepth
      omega
    rw [inlineEvents, run_enclose, enter_emphasis (by omega) hstop, Option.bind_some,
      ih hopen (Nat.le_refl 1), Option.bind_some]
    rfl

theorem enter_blockQuote (hroom : k < options.maxDepth) :
    (state options k none 0).enter .blockQuote ⟨0, 1⟩ = some (state options (k + 1) none 0) := by
  have fits : (state options k none 0).fits 1 := by
    unfold Builder.fits Builder.depth
    simp [state, length_containers, Nat.succ_le_of_lt hroom]
  exact if_pos fits

/-- The leaf of the paragraph before its first inline. -/
def paragraphLeaf : Leaf where
  kind := .paragraph false
  start := 0
  stop := 0
  linesBefore := none

theorem enter_paragraph :
    (state options k none 0).enter .paragraph ⟨0, 1⟩ =
      some (state options k (some paragraphLeaf) 0) := by
  cases k <;> rfl

theorem leave_paragraph (n : Nat) :
    (state options k (some ({ paragraphLeaf with stop := 1 }.push (inline n))) 0).leave .paragraph
      ⟨0, 1⟩ = some ((state options k none 1).pushBlock (block n 0)) := by
  cases k <;> rfl

theorem leave_blockQuote (b : Block) :
    ((state options (k + 1) none 1).pushBlock b).leave .blockQuote ⟨0, 1⟩ =
      some ((state options k none 1).pushBlock (.quote [{}] [b] .tracked)) := by
  cases k <;> rfl

theorem run_blockEvents {m n : Nat} (hm : m ≤ options.maxDepth)
    (hroom : k + n ≤ options.maxDepth) :
    (state options k none 0).run (blockEvents m n) =
      some ((state options k none 1).pushBlock (block m n)) := by
  induction n generalizing k with
  | zero =>
    have hfirst : paragraphLeaf.frames.length + m ≤ options.maxDepth := by
      show 0 + m ≤ options.maxDepth
      omega
    rw [blockEvents, run_enclose, enter_paragraph, Option.bind_some,
      run_inlineEvents m hfirst (Nat.zero_le 1), Option.bind_some]
    exact leave_paragraph m
  | succ n ih =>
    rw [blockEvents, run_enclose, enter_blockQuote (by omega), Option.bind_some, ih (by omega),
      Option.bind_some]
    exact leave_blockQuote (block m n)

theorem ofEvents?_blockEvents {options : ParseOptions} {m n : Nat} (hm : m ≤ options.maxDepth)
    (hn : n ≤ options.maxDepth) (registry : EmojiRegistry) :
    Document.ofEvents? "*" [] options (blockEvents m n) registry = some ⟨[block m n]⟩ := by
  have hrun : (state ⟨options, registry⟩ 0 none 0).run (blockEvents m n) =
      some ((state ⟨options, registry⟩ 0 none 1).pushBlock (block m n)) :=
    run_blockEvents hm (show 0 + n ≤ options.maxDepth by omega)
  show ((state ⟨options, registry⟩ 0 none 0).run (blockEvents m n)).bind Builder.finish = _
  rw [hrun]
  rfl

/-! ### Rendering the tree -/

variable {pass : Pass} {levels : Nat}

theorem failure_inline (hrules : pass.rules = .standard) {n : Nat} (h : levels ≤ n) :
    pass.failure levels (.inline (inline n)) = some (.depthLimit pass.options.maxDepth) := by
  induction levels generalizing n with
  | zero => exact Pass.failure_zero_of_standard hrules (by cases n <;> rfl)
  | succ levels ih =>
    obtain ⟨n, rfl⟩ : ∃ k, n = k + 1 := Nat.exists_eq_succ_of_ne_zero (by omega)
    exact Pass.failure_succ_of_part hrules rfl rfl (ih (by omega))

theorem failure_block (hrules : pass.rules = .standard) {m n : Nat} (h : levels ≤ n + m + 1) :
    pass.failure levels (.block (block m n)) = some (.depthLimit pass.options.maxDepth) := by
  induction n generalizing levels with
  | zero =>
    cases levels with
    | zero => exact Pass.failure_zero_of_standard hrules rfl
    | succ levels =>
      exact Pass.failure_succ_of_part hrules rfl rfl (failure_inline hrules (by omega))
  | succ n ih =>
    cases levels with
    | zero => exact Pass.failure_zero_of_standard hrules rfl
    | succ levels => exact Pass.failure_succ_of_part hrules rfl rfl (ih (by omega))

theorem result_run (hrules : pass.rules = .standard) {m n : Nat}
    (h : pass.options.maxDepth ≤ n + m + 2) :
    (pass.run ⟨[block m n]⟩).result = .error (.depthLimit pass.options.maxDepth) := by
  have tooDeep {levels : Nat} (hlevels : levels ≤ n + m + 2) :
      pass.failure levels (.document ⟨[block m n]⟩) =
        some (.depthLimit pass.options.maxDepth) := by
    cases levels with
    | zero => exact Pass.failure_zero_of_standard hrules rfl
    | succ levels =>
      exact Pass.failure_succ_of_part hrules rfl rfl (failure_block hrules (by omega))
  rw [Pass.result_run, Pass.error_outcome hrules, tooDeep h]

end Deepest

/-- **A cap of `d` on nesting makes documents that can be rendered.** Whatever events a builder with
limit `d` is fed, at most `d` containers stand around any leaf of its document and at most `d`
inline containers in it, none of them of an extension; so the standard rules render it wherever
`2 * d + 3` nodes may be nested in one another. Where fewer may, the document of some matching
events is too deep. -/
theorem Document.renders_of_capped (d : Nat) :
    (∀ source definitions events document, ∀ options : ParseOptions, ∀ registry : EmojiRegistry,
      options.maxDepth = d →
      ofEvents? source definitions options events registry = some document →
      (∀ block ∈ document.blocks, block.Within d d) ∧
        ∀ pass : Pass, pass.rules = .standard → 2 * d + 3 ≤ pass.options.maxDepth →
          ∃ r, (pass.run document).result = .ok r) ∧
    ∃ source definitions events document, Balanced events ∧
      (∀ options : ParseOptions, ∀ registry : EmojiRegistry, options.maxDepth = d →
        ofEvents? source definitions options events registry = some document) ∧
      ∀ pass : Pass, pass.rules = .standard → pass.options.maxDepth ≤ 2 * d + 2 →
        (pass.run document).result = .error (.depthLimit pass.options.maxDepth) := by
  constructor
  · intro source definitions events document options registry hmax h
    subst hmax
    have within := within_of_ofEvents? h
    refine ⟨within, fun pass hrules hlimit => ?_⟩
    exact pass.result_of_within hrules within (by omega)
  · refine ⟨"*", [], Deepest.blockEvents d d, ⟨[Deepest.block d d]⟩,
      Deepest.balanced_blockEvents d d, ?_, ?_⟩
    · intro options registry hmax
      exact Deepest.ofEvents?_blockEvents (by omega) (by omega) registry
    · intro pass hrules hlimit
      exact Deepest.result_run hrules (by omega)

/-- A quote that is not left, a list that does not fit in it, an item outside of any list and
emphasis that is nested too deep: what becomes part of the document is a paragraph. -/
theorem Document.renders_of_capped_damaged :
    let options : ParseOptions := { maxDepth := 1, emoji := false }
    let events : List RangedEvent := [
      ⟨.leave .link, ⟨0, 0⟩⟩, ⟨.enter .blockQuote, ⟨0, 4⟩⟩, ⟨.enter (.list none), ⟨2, 4⟩⟩,
      ⟨.leave .item, ⟨2, 4⟩⟩, ⟨.enter .item, ⟨2, 4⟩⟩, ⟨.enter .strong, ⟨2, 4⟩⟩,
      ⟨.enter .emphasis, ⟨2, 4⟩⟩, ⟨.text "a", ⟨3, 4⟩⟩]
    let document : Document := ⟨[.paragraph [.emphasis '*' 2 [.literal "a"]] .tracked]⟩
    ofEvents? "> *a" [] options events = some document ∧
      (∀ block ∈ document.blocks, block.Within 1 1) ∧
      (∃ r, (({ rules := .standard, options := { maxDepth := 5 } } : Pass).run document).result =
        .ok r) ∧
      ∃ source definitions events document, Balanced events ∧
        ofEvents? source definitions options events = some document ∧
        (({ rules := .standard, options := { maxDepth := 4 } } : Pass).run document).result =
          .error (.depthLimit 4) := by
  intro options events document
  have built : ofEvents? "> *a" [] options events = some document := by rfl
  obtain ⟨capped, source, definitions, deep, deepest, hbalanced, hbuilt, hfails⟩ :=
    renders_of_capped 1
  obtain ⟨within, renders⟩ := capped "> *a" [] events document options knownEmoji rfl built
  exact ⟨built, within, renders _ rfl (by decide), source, definitions, deep, deepest, hbalanced,
    hbuilt options knownEmoji rfl, hfails _ rfl (by decide)⟩

end MarkdownSpans
