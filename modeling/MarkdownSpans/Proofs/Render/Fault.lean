import MarkdownSpans.Proofs.Render.Dispatch
import MarkdownSpans.Proofs.Render.Spans

/-!
# The fault that ends a pass

`Node.visits` walks the tree below a node in the order in which it is rendered and gives each node
its level. A pass whose rules are the standard ones without those of some kinds fails by the first
node on this walk that has no rule or lies beyond the limit (`Pass.failure_eq_findSome?`), and in no
other way (`Pass.result_standardWithout`).
-/

namespace MarkdownSpans

/-! ### Standard rules without those of some kinds -/

namespace RuleSet

/-- The standard rules without those of some kinds. -/
def standardWithout (removed : List NodeKind) : RuleSet := removed.foldl erase standard

theorem foldl_erase (rules : RuleSet) (removed : List NodeKind) :
    removed.foldl erase rules =
      { rules with rule? := fun kind => if kind ∈ removed then none else rules.rule? kind } := by
  induction removed generalizing rules with
  | nil => simp
  | cons first rest ih =>
    rw [List.foldl_cons, ih]
    simp only [erase, List.mem_cons]
    congr 1
    funext kind
    by_cases hfirst : kind = first <;> simp [hfirst]

end RuleSet

/-- Whether a node has no rule once those of some kinds are removed from the standard ones. -/
def Node.isUnknown (removed : List NodeKind) (node : Node) : Bool :=
  node.customName?.isSome || removed.contains node.kind

namespace RuleSet

variable {removed : List NodeKind} {node : Node}

theorem find?_standardWithout_of_unknown (h : node.isUnknown removed = true) :
    (standardWithout removed).find? node = none := by
  rw [standardWithout, foldl_erase, find?]
  cases hname : node.customName? with
  | some name => rfl
  | none =>
    have gone : node.kind ∈ removed := by simpa [Node.isUnknown, hname] using h
    exact if_pos gone

theorem find?_standardWithout_of_known (h : node.isUnknown removed = false) :
    (standardWithout removed).find? node = some (standardRule node.kind) := by
  obtain ⟨hname, kept⟩ : node.customName? = none ∧ node.kind ∉ removed := by
    simpa [Node.isUnknown] using h
  have standard_rule := find?_standard hname
  rw [find?, hname] at standard_rule
  rw [standardWithout, foldl_erase, find?, hname]
  exact (if_neg kept).trans standard_rule

theorem followsStandard_standardWithout (removed : List NodeKind) :
    (standardWithout removed).FollowsStandard := by
  intro node rule h
  cases hknown : node.isUnknown removed with
  | true => simp [find?_standardWithout_of_unknown hknown] at h
  | false =>
    rw [find?_standardWithout_of_known hknown, Option.some.injEq] at h
    rw [← h, standardRule, if_pos rfl]

end RuleSet

/-! ### The walk over a tree -/

/-- A node with its level: one more than that of the node it is rendered for. -/
structure Visit where
  level : Nat
  node : Node

namespace Node

theorem sizeOf_part_lt {node part : Node} (h : part ∈ node.parts) : sizeOf part < sizeOf node := by
  have item_lt (i : ListItem) : sizeOf i.children < sizeOf i := by
    cases i
    simp [ListItem.children]
    omega
  unfold parts at h
  split at h <;> simp only [List.mem_map, List.not_mem_nil] at h <;>
    obtain ⟨child, hchild, rfl⟩ := h <;>
    have := List.sizeOf_lt_of_mem hchild <;>
    simp
  case h_1 d =>
    cases d
    simp at this ⊢
    omega
  case h_2 i =>
    have := item_lt i
    omega
  all_goals omega

/-- The nodes of a tree in the order in which they are rendered; those that are not entered are left
out with all below them. -/
def visits (enters : Node → Bool) (level : Nat) (node : Node) : List Visit :=
  if enters node then
    ⟨level, node⟩ :: node.parts.attach.flatMap fun part => part.1.visits enters (level + 1)
  else
    []
  termination_by sizeOf node
  decreasing_by exact sizeOf_part_lt part.2

section Visits

variable {enters : Node → Bool} {node : Node}

theorem visits_of_enters (level : Nat) (h : enters node = true) :
    node.visits enters level =
      ⟨level, node⟩ :: node.parts.flatMap fun part => part.visits enters (level + 1) := by
  rw [visits, if_pos h, List.flatMap_subtype (g := fun part => part.visits enters (level + 1))
    (fun _ _ => rfl), List.unattach_attach]

theorem visits_of_not_enters (level : Nat) (h : enters node = false) :
    node.visits enters level = [] := by
  simp [visits, h]

/-- Only nodes that are entered are visited. -/
theorem enters_of_mem_visits {level : Nat} {v : Visit} (h : v ∈ node.visits enters level) :
    enters v.node = true := by
  induction level, node using visits.induct enters with
  | case1 level node hnode ih =>
    rw [visits_of_enters level hnode, List.mem_cons, List.mem_flatMap] at h
    rcases h with rfl | ⟨part, hpart, hv⟩
    · exact hnode
    · exact ih ⟨part, hpart⟩ hv
  | case2 level node hnode =>
    rw [visits_of_not_enters level (by simpa using hnode)] at h
    cases h

end Visits

/-- The nodes of a tree in the order in which they are rendered, each with its level. -/
def allVisits (level : Nat) (node : Node) : List Visit := node.visits (fun _ => true) level

/-- The same without the unknown nodes and all below them. -/
def knownVisits (removed : List NodeKind) (level : Nat) (node : Node) : List Visit :=
  node.visits (fun n => !n.isUnknown removed) level

end Node

namespace Visit

/-- The error of a node that has no rule or lies beyond the limit. Having no rule counts first. -/
def fault? (removed : List NodeKind) (limit : Nat) (v : Visit) : Option RenderError :=
  if v.node.isUnknown removed then some (.unknownNode v.node.kindName)
  else if limit < v.level then some (.depthLimit limit)
  else none

variable {removed : List NodeKind} {limit : Nat} {v : Visit}

theorem fault?_eq_none_iff :
    v.fault? removed limit = none ↔ ¬v.node.isUnknown removed ∧ v.level ≤ limit := by
  unfold fault?
  split_ifs with hunknown hdeep
  · simp [hunknown]
  · simp [hunknown, hdeep]
  · simpa [hunknown] using hdeep

theorem isSome_fault?_iff :
    (v.fault? removed limit).isSome ↔ v.node.isUnknown removed ∨ limit < v.level := by
  unfold fault?
  split_ifs with hunknown hdeep <;> simp [*]

theorem fault?_eq_some_iff {error : RenderError} :
    v.fault? removed limit = some error ↔
      v.node.isUnknown removed ∧ error = .unknownNode v.node.kindName ∨
        ¬v.node.isUnknown removed ∧ limit < v.level ∧ error = .depthLimit limit := by
  unfold fault?
  split_ifs with hunknown hdeep
  · simp [hunknown, eq_comm]
  · simp [hunknown, hdeep, eq_comm]
  · simp [hunknown, hdeep]

end Visit

/-! ### Passes -/

/-- The first result over joined lists is the first over the lists. -/
theorem findSome?_flatMap {α β γ : Type} (f : β → Option γ) (g : α → List β) (as : List α) :
    (as.flatMap g).findSome? f = as.findSome? fun a => (g a).findSome? f := by
  induction as with
  | nil => rfl
  | cons a rest ih =>
    rw [List.flatMap_cons, List.findSome?_append, ih, List.findSome?_cons]
    cases (g a).findSome? f <;> rfl

namespace Pass

variable {pass : Pass} {removed : List NodeKind}

/-- The nodes that a pass enters: all of them, or those with a rule if the others are skipped. -/
def enters (pass : Pass) (removed : List NodeKind) (node : Node) : Bool :=
  match pass.options.unknownNodes with
  | .error => true
  | .skip => !node.isUnknown removed

theorem enters_of_known {node : Node} (h : node.isUnknown removed = false) :
    pass.enters removed node = true := by
  unfold enters
  split <;> simp [h]

/-- An unknown node is the first fault on the walk below it, or there is none if it is skipped. -/
theorem findSome?_visits_of_unknown {node : Node} (h : node.isUnknown removed = true)
    (level : Nat) :
    (node.visits (pass.enters removed) level).findSome?
      (Visit.fault? removed pass.options.maxDepth) = pass.unknownError? node := by
  cases hpolicy : pass.options.unknownNodes with
  | error =>
    have entered : pass.enters removed node = true := by simp [enters, hpolicy]
    simp [Node.visits_of_enters level entered, Visit.fault?, h, unknownError?, hpolicy]
  | skip =>
    have left_out : pass.enters removed node = false := by simp [enters, hpolicy, h]
    simp [Node.visits_of_not_enters level left_out, unknownError?, hpolicy]

/-- **The failure of a node is the first fault on the walk below it.** -/
theorem failure_eq_findSome? (hrules : pass.rules = .standardWithout removed) {levels level : Nat}
    (hlevel : level + levels = pass.options.maxDepth + 1) (node : Node) :
    pass.failure levels node =
      (node.visits (pass.enters removed) level).findSome?
        (Visit.fault? removed pass.options.maxDepth) := by
  induction levels generalizing level node with
  | zero =>
    cases hnode : node.isUnknown removed with
    | true =>
      have hrule := RuleSet.find?_standardWithout_of_unknown hnode
      rw [findSome?_visits_of_unknown hnode, failure_of_none 0 (by rw [hrules, hrule])]
    | false =>
      have hrule := RuleSet.find?_standardWithout_of_known hnode
      have too_deep : pass.options.maxDepth < level := by omega
      rw [failure_zero (by rw [hrules, hrule]),
        Node.visits_of_enters level (enters_of_known hnode)]
      simp [Visit.fault?, hnode, too_deep]
  | succ levels ih =>
    cases hnode : node.isUnknown removed with
    | true =>
      have hrule := RuleSet.find?_standardWithout_of_unknown hnode
      rw [findSome?_visits_of_unknown hnode, failure_of_none _ (by rw [hrules, hrule])]
    | false =>
      have hrule := RuleSet.find?_standardWithout_of_known hnode
      have not_too_deep : ¬ pass.options.maxDepth < level := by omega
      have parts_level : level + 1 + levels = pass.options.maxDepth + 1 := by omega
      rw [failure_succ levels (by rw [hrules, hrule]),
        Node.visits_of_enters level (enters_of_known hnode), List.findSome?_cons,
        findSome?_flatMap, funext (ih parts_level)]
      -- The node itself has no fault, so the first one lies below its parts.
      simp [Visit.fault?, hnode, not_too_deep]

/-- A pass fails by the first fault on the walk over its document. -/
theorem result_eq_error_iff (hrules : pass.rules = .standardWithout removed) (document : Document)
    (error : RenderError) :
    (pass.run document).result = .error error ↔
      ((Node.document document).visits (pass.enters removed) 1).findSome?
        (Visit.fault? removed pass.options.maxDepth) = some error := by
  have outcome_error : (pass.outcome document).error =
      pass.failure pass.options.maxDepth (.document document) :=
    error_render (hrules ▸ RuleSet.followsStandard_standardWithout removed) _ _ _ (Nat.zero_add _)
  rw [← failure_eq_findSome? hrules (Nat.add_comm 1 _), ← outcome_error, result_run]
  cases (pass.outcome document).error <;> simp

/-- A pass fails only by an unknown node or by the limit. -/
theorem cause_of_result_eq_error (hrules : pass.rules = .standardWithout removed)
    {document : Document} {error : RenderError}
    (h : (pass.run document).result = .error error) :
    (∃ kind, error = .unknownNode kind) ∨ error = .depthLimit pass.options.maxDepth := by
  rw [result_eq_error_iff hrules] at h
  obtain ⟨v, -, hfault⟩ := List.exists_of_findSome?_eq_some h
  rcases Visit.fault?_eq_some_iff.1 hfault with ⟨-, rfl⟩ | ⟨-, -, rfl⟩
  · exact .inl ⟨_, rfl⟩
  · exact .inr rfl

theorem visits_of_refused (hpolicy : pass.options.unknownNodes = .error) (node : Node)
    (level : Nat) : node.visits (pass.enters removed) level = node.allVisits level := by
  unfold Node.allVisits enters
  simp only [hpolicy]

theorem visits_of_skipped (hpolicy : pass.options.unknownNodes = .skip) (node : Node)
    (level : Nat) : node.visits (pass.enters removed) level = node.knownVisits removed level := by
  unfold Node.knownVisits enters
  simp only [hpolicy]

/-- The first fault among known nodes is that one of them lies too deep. -/
theorem findSome?_knownVisits_eq_some_iff {node : Node} {level maxDepth : Nat}
    {error : RenderError} :
    (node.knownVisits removed level).findSome? (Visit.fault? removed maxDepth) = some error ↔
      error = .depthLimit maxDepth ∧
        ∃ v ∈ node.knownVisits removed level, maxDepth < v.level := by
  have too_deep {error : RenderError}
      (h : (node.knownVisits removed level).findSome? (Visit.fault? removed maxDepth) =
        some error) :
      error = .depthLimit maxDepth ∧
        ∃ v ∈ node.knownVisits removed level, maxDepth < v.level := by
    obtain ⟨v, hv, hfault⟩ := List.exists_of_findSome?_eq_some h
    have known : v.node.isUnknown removed = false := by
      simpa using Node.enters_of_mem_visits hv
    rcases Visit.fault?_eq_some_iff.1 hfault with ⟨hunknown, -⟩ | ⟨-, hdeep, rfl⟩
    · simp [known] at hunknown
    · exact ⟨rfl, v, hv, hdeep⟩
  constructor
  · exact too_deep
  · rintro ⟨rfl, v, hv, hdeep⟩
    obtain ⟨error, herror⟩ := Option.isSome_iff_exists.1 <|
      List.findSome?_isSome_iff.2 ⟨v, hv, Visit.isSome_fault?_iff.2 (.inr hdeep)⟩
    rw [herror, (too_deep herror).1]

/-- **How a pass fails.** A pass whose rules are the standard ones without those of some kinds fails,
where unknown nodes are refused, by the first node in the order of rendering that is unknown or lies
beyond the limit, an unknown node by having no rule even where it lies too deep. Where unknown nodes
are skipped, it fails by the limit, and only if a node that is left lies beyond it. No rule is ever
given a node of another kind, and no span is left open. -/
theorem result_standardWithout (pass : Pass) (removed : List NodeKind)
    (hrules : pass.rules = .standardWithout removed) (document : Document) :
    (pass.options.unknownNodes = .error →
      ((∃ error, (pass.run document).result = .error error) ↔
        ∃ v ∈ (Node.document document).allVisits 1,
          v.node.isUnknown removed ∨ pass.options.maxDepth < v.level) ∧
      ∀ error, (pass.run document).result = .error error ↔
        ∃ before v after, (Node.document document).allVisits 1 = before ++ v :: after ∧
          (∀ u ∈ before, ¬u.node.isUnknown removed ∧ u.level ≤ pass.options.maxDepth) ∧
          (v.node.isUnknown removed ∧ error = .unknownNode v.node.kindName ∨
            ¬v.node.isUnknown removed ∧ pass.options.maxDepth < v.level ∧
              error = .depthLimit pass.options.maxDepth)) ∧
    (pass.options.unknownNodes = .skip →
      ∀ error, (pass.run document).result = .error error ↔
        error = .depthLimit pass.options.maxDepth ∧
          ∃ v ∈ (Node.document document).knownVisits removed 1,
            pass.options.maxDepth < v.level) ∧
    (∀ expected found, (pass.run document).result ≠ .error (.ruleMismatch expected found)) ∧
    ∀ kind offset, (pass.run document).result ≠ .error (.unclosedSpan kind offset) := by
  refine ⟨fun hpolicy => ⟨?_, fun error => ?_⟩, fun hpolicy error => ?_, ?_, ?_⟩
  · simp only [result_eq_error_iff hrules, visits_of_refused hpolicy,
      ← Option.isSome_iff_exists, List.findSome?_isSome_iff, Visit.isSome_fault?_iff]
  · simp only [result_eq_error_iff hrules, visits_of_refused hpolicy, List.findSome?_eq_some_iff,
      Visit.fault?_eq_none_iff, Visit.fault?_eq_some_iff]
    simp only [and_comm]
  · rw [result_eq_error_iff hrules, visits_of_skipped hpolicy, findSome?_knownVisits_eq_some_iff]
  · intro expected found h
    simpa using cause_of_result_eq_error hrules h
  · intro kind offset h
    simpa using cause_of_result_eq_error hrules h

/-- A piece of code without a rule lies deeper than is allowed. Where unknown nodes are refused it is
the first fault and counts as unknown; where they are skipped, what is left is not too deep. -/
theorem result_standardWithout_codeSpan :
    let document : Document := ⟨[.quote [.marked .lf, .marked .absent]
      [.paragraph [.emphasis '*' 1 [.codeSpan "a"], .literal "b"] {}, .custom "poll" [] [] [] {}]
      {}]⟩
    let removed : List NodeKind := [.heading, .codeSpan]
    let pass (policy : UnknownNodePolicy) : Pass :=
      { rules := .standardWithout removed, options := { maxDepth := 4, unknownNodes := policy } }
    let r : RichText := ⟨"> b\n", [⟨2, 0, { kind := .bold }⟩], .utf16⟩
    ((pass .error).run document).result = .error (.unknownNode "code span") ∧
      (∃ v ∈ (Node.document document).allVisits 1,
        v.node.isUnknown removed ∧ v.node.kindName = "code span") ∧
      ((pass .skip).run document).result = .ok r ∧
      ¬∃ v ∈ (Node.document document).knownVisits removed 1, 4 < v.level := by
  intro document removed pass r
  have refused : ((pass .error).run document).result = .error (.unknownNode "code span") := by
    decide
  have skipped : ((pass .skip).run document).result = .ok r := by decide
  refine ⟨refused, ?_, skipped, fun deep => ?_⟩
  · have first := ((result_standardWithout (pass .error) removed rfl document).1 rfl).2
    obtain ⟨before, v, after, hwalk, -, ⟨hunknown, hname⟩ | ⟨-, -, hname⟩⟩ := (first _).1 refused
    · refine ⟨v, ?_, hunknown, (RenderError.unknownNode.inj hname).symm⟩
      simp [hwalk]
    · cases hname
  · have deepest := (result_standardWithout (pass .skip) removed rfl document).2.1 rfl
    rw [(deepest _).2 ⟨rfl, deep⟩] at skipped
    cases skipped

end Pass

end MarkdownSpans
