import TracePipeline.Conversion
import TracePipeline.Proofs.Edits

/-! Structural spans are transparent. A span without attributes can make way for its own children:
the walk passes through it, a search for markers looks behind it, and it declares nothing. Only a
stage sees it, as one of its branches. -/

set_option autoImplicit false

namespace TracePipeline

namespace Contribution

theorem append_assoc (first second third : Contribution) :
    first ++ second ++ third = first ++ (second ++ third) := by
  change append (append first second) third = append first (append second third)
  simp [append, Option.or_assoc]

end Contribution

namespace Span

/-! ## Spans in a row -/

theorem markerOrderAmong?_append (group : Span) (first second : List Span) :
    markerOrderAmong? group (first ++ second) =
      (markerOrderAmong? group first).or (markerOrderAmong? group second) := by
  induction first with
  | nil => rfl
  | cons span rest ih => simp only [List.cons_append, markerOrderAmong?, ih, Option.or_assoc]

theorem walkAll_append (rules : WalkRules) (pending : List PendingTool) (context : Context)
    (first second : List Span) (state : WalkState) :
    walkAll rules pending context (first ++ second) state =
      let found := walkAll rules pending context first state
      let others := walkAll rules pending context second found.2
      (found.1 ++ others.1, others.2) := by
  induction first generalizing state with
  | nil => rfl
  | cons span rest ih =>
      simp only [List.cons_append, walkAll, ih, Contribution.append_assoc]

/-! ## Equal insides -/

/-- Two lists of spans that make no difference inside a span that is no parallel stage. -/
structure SameInside (rules : WalkRules) (spans spans' : List Span) : Prop where
  marker : ∀ group, markerOrderAmong? group spans' = markerOrderAmong? group spans
  heard : ∀ state, (descendantsOf spans').foldl WalkState.declareAll state =
    (descendantsOf spans).foldl WalkState.declareAll state
  walk : ∀ pending context state,
    walkAll rules pending context spans' state = walkAll rules pending context spans state

/-- Two spans with the same fields that make no difference to what is around them. -/
structure SameOutside (rules : WalkRules) (span span' : Span) : Prop where
  order : span'.order = span.order
  marker : ∀ group, markerOrder? group span' = markerOrder? group span
  heard : ∀ state, span'.declareBelow state = span.declareBelow state
  walk : ∀ pending context state,
    span'.walk rules pending context state = span.walk rules pending context state

theorem markerOrder?_eq (group span : Span) :
    markerOrder? group span = markerOrderAmong? group span.children := by
  cases span
  rw [markerOrder?]

private theorem markerOrderAmong?_congr {group group' : Span} {spans : List Span}
    (name : group'.name = group.name)
    (each : ∀ span ∈ spans, markerOrder? group' span = markerOrder? group span) :
    markerOrderAmong? group' spans = markerOrderAmong? group spans := by
  induction spans with
  | nil => rfl
  | cons span rest ih =>
      have marked : group'.isMarkedBy span = group.isMarkedBy span := by
        simp only [isMarkedBy, name]
      rw [markerOrderAmong?, markerOrderAmong?, marked, each span (.head _),
        ih fun span member => each span (.tail _ member)]

/-- A search for markers knows what it looks for by the name. -/
theorem markerOrder?_congr {group group' : Span} (name : group'.name = group.name) (span : Span) :
    markerOrder? group' span = markerOrder? group span := by
  induction span using induct_children with
  | step span ih =>
      rw [markerOrder?_eq, markerOrder?_eq]
      exact markerOrderAmong?_congr name ih

private theorem order_withChildren_of_marker {span : Span} {children : List Span}
    (marker : ∀ group,
      markerOrder? group (span.withChildren children) = markerOrder? group span) :
    (span.withChildren children).order = span.order := by
  have name : (span.withChildren children).name = span.name := rfl
  have found : markerOrder? (span.withChildren children) (span.withChildren children) =
      markerOrder? span span :=
    (marker _).trans (markerOrder?_congr name span)
  unfold order
  rw [found]
  rfl

/-- A span whose children are exchanged for others that make no difference inside it makes none
outside either. -/
theorem sameOutside_withChildren {rules : WalkRules} (locals : rules.registry.Local) {span : Span}
    {children : List Span} (inside : SameInside rules span.children children)
    (forks : (span.withChildren children).forks rules.registry = span.forks rules.registry)
    (branches : span.forks rules.registry → ∀ pending context state,
      walkBranches rules pending context children state =
        walkBranches rules pending context span.children state) :
    SameOutside rules span (span.withChildren children) := by
  have marker (group : Span) :
      markerOrder? group (span.withChildren children) = markerOrder? group span := by
    rw [markerOrder?_eq, markerOrder?_eq]
    exact inside.marker group
  have order := order_withChildren_of_marker marker
  have heard (state : WalkState) :
      (span.withChildren children).declareBelow state = span.declareBelow state := by
    rw [declareBelow_eq, declareBelow_eq, descendants_eq, descendants_eq]
    exact inside.heard state
  refine ⟨order, marker, heard, ?_⟩
  intro pending context state
  rw [walk_eq_contribute, walk_eq_contribute, contribute_withChildren locals (fun _ => heard),
    forks, withChildren_descends]
  by_cases onward : span.descends rules.registry
  · by_cases parallel : span.forks rules.registry
    · simp only [if_pos onward, if_pos parallel, withChildren_children,
        withChildren_pendingWithin, withChildren_contextInside, stageStep_withChildren order,
        branches parallel]
    · simp only [if_pos onward, if_neg parallel, withChildren_children,
        withChildren_pendingWithin, withChildren_contextInside, inside.walk]
  · simp only [if_neg onward]

/-! ## Splicing -/

/-- The children of a span that is no stage after one of them, a span without attributes that
declares nothing, has made way for its own. -/
def Splices (span : Span) (children : List Span) : Prop :=
  span.stepType ≠ "stage" ∧
    ∃ (before : List Span) (group : Span) (after : List Span),
      span.children = before ++ group :: after ∧ group.isStructural ∧
        group.stepType ≠ "tool" ∧ children = before ++ (group.children ++ after)

private theorem directOrder?_of_isStructural {span : Span} (structural : span.isStructural) :
    span.directOrder? = none := by
  have nothing : span.attributes = [] := List.isEmpty_iff.mp structural
  simp only [directOrder?, rawOrder?, nothing]
  rfl

private theorem declarations_of_isStructural {span : Span} (structural : span.isStructural)
    (noTool : span.stepType ≠ "tool") : span.declarations = [] := by
  have nothing : span.attributes = [] := List.isEmpty_iff.mp structural
  have absent : span.sidecar = .absent := by
    simp only [sidecar, nothing]
    rfl
  rw [declarations, absent, if_neg noTool]
  rfl

theorem walk_of_isStructural {span : Span} (structural : span.isStructural) (rules : WalkRules)
    (pending : List PendingTool) (context : Context) (state : WalkState) :
    span.walk rules pending context state =
      walkAll rules pending context span.children state := by
  cases span
  rw [walk, if_pos structural]

/-- In a row of spans, a structural one makes no difference against its children. -/
theorem sameInside_splice (rules : WalkRules) {group : Span} (structural : group.isStructural)
    (noTool : group.stepType ≠ "tool") (before after : List Span) :
    SameInside rules (before ++ group :: after) (before ++ (group.children ++ after)) where
  marker := by
    intro sought
    have own : (if sought.isMarkedBy group then group.directOrder? else none) = none := by
      rw [directOrder?_of_isStructural structural, ite_self]
    simp only [markerOrderAmong?_append, markerOrderAmong?, own, Option.none_or,
      markerOrder?_eq sought group]
  heard := by
    intro state
    have silent (state : WalkState) : state.declareAll group = state := by
      rw [WalkState.declareAll, declarations_of_isStructural structural noTool]
      rfl
    simp only [descendantsOf_append, descendantsOf, descendants_eq group, List.foldl_append,
      List.foldl_cons, silent]
  walk := by
    intro pending context state
    simp only [walkAll_append, walkAll, walk_of_isStructural structural]

/-- In a row of spans, one that makes no difference outside can stand for another. -/
theorem sameInside_replace {rules : WalkRules} {change : Span → List Span → Prop}
    {child child' : Span} (edited : Edited change child child')
    (same : SameOutside rules child child') (before after : List Span) :
    SameInside rules (before ++ child :: after) (before ++ child' :: after) where
  marker := by
    intro sought
    have marked : sought.isMarkedBy child' = sought.isMarkedBy child :=
      edited.congr sought.isMarkedBy fun _ _ => rfl
    have direct : child'.directOrder? = child.directOrder? :=
      edited.congr directOrder? fun _ _ => rfl
    simp only [markerOrderAmong?_append, markerOrderAmong?, marked, direct, same.marker]
  heard := by
    intro state
    have declares : child'.declarations = child.declarations :=
      edited.congr declarations fun _ _ => rfl
    have below (state : WalkState) : child'.descendants.foldl WalkState.declareAll state =
        child.descendants.foldl WalkState.declareAll state := by
      simpa only [declareBelow_eq] using same.heard state
    simp only [descendantsOf_append, descendantsOf, List.foldl_append, List.foldl_cons, below,
      WalkState.declareAll, declares]
  walk := by
    intro pending context state
    simp only [walkAll_append, walkAll, same.walk]

private theorem walkBranches_replace {rules : WalkRules} {change : Span → List Span → Prop}
    {child child' : Span} (edited : Edited change child child')
    (same : SameOutside rules child child') (before after : List Span)
    (pending : List PendingTool) (context : Context) (state : WalkState) :
    walkBranches rules pending context (before ++ child' :: after) state =
      walkBranches rules pending context (before ++ child :: after) state := by
  induction before generalizing state with
  | nil =>
      simp only [List.nil_append, walkBranches, same.walk, edited.branchStep_eq same.order]
  | cons span rest ih => simp only [List.cons_append, walkBranches, ih]

private theorem forks_of_not_stage {registry : Registry} {span : Span}
    (noStage : span.stepType ≠ "stage") :
    span.forks registry = false := by
  unfold forks
  cases dispatched : registry.dispatch span.stepType with
  | stage => exact absurd (Registry.eq_of_dispatch_stage dispatched) noStage
  | _ => simp

theorem Edited.sameOutside {rules : WalkRules} (locals : rules.registry.Local)
    {span span' : Span} (edited : Edited Splices span span') : SameOutside rules span span' := by
  induction edited with
  | @here span children changed =>
      obtain ⟨noStage, before, group, after, split, structural, noTool, rfl⟩ := changed
      have straight : span.forks rules.registry = false := forks_of_not_stage noStage
      have straight' : (span.withChildren (before ++ (group.children ++ after))).forks
          rules.registry = false := forks_of_not_stage noStage
      refine sameOutside_withChildren locals ?_ (straight'.trans straight.symm) ?_
      · rw [split]
        exact sameInside_splice rules structural noTool before after
      -- Its children are no branches, before or after.
      · intro forks
        rw [straight] at forks
        cases forks
  | @inside span child child' before after split edited same =>
      refine sameOutside_withChildren locals ?_ ?_ ?_
      · rw [split]
        exact sameInside_replace edited same before after
      · have parallel := isParallel_replace edited before after
        rw [← split] at parallel
        exact forks_withChildren parallel
      · intro _ pending context state
        rw [split]
        exact walkBranches_replace edited same before after pending context state

end Span

/-! ## Conversions -/

namespace Conversion

/-- A stage without attributes around a shell. -/
def plainGroup : Span where
  typeName := "stage"
  spanId := "bbbbbb01"
  traceId := "t"
  parentSpanId := "aaaaaa01"
  parent := ""
  name := "group"
  spanName := ""
  attributes := []
  parameters := []
  children := [{
    typeName := "sh"
    spanId := "cccccc01"
    traceId := "t"
    parentSpanId := "bbbbbb01"
    parent := ""
    name := "build"
    spanName := ""
    attributes := [("step.id", "2")]
    parameters := [("script", .string "npm ci\nmvn test")]
    children := [] }]

/-- A wrapper of Maven around some spans. -/
def mavenAround (children : List Span) : Span where
  typeName := "withMaven"
  spanId := "aaaaaa01"
  traceId := "t"
  parentSpanId := ""
  parent := ""
  name := "maven"
  spanName := ""
  attributes := [("step.id", "1")]
  parameters := []
  children := children

def listedAround (children : List Span) : Span :=
  { mavenAround children with typeName := "group" }

end Conversion

end TracePipeline
