import Mathlib.Logic.Relation
import TracePipeline.Proofs.Edits
import TracePipeline.Proofs.Outline

/-! The order of siblings. Where no tool is waited for, every span contributes a block of entries
by itself. When all spans below the root have order ids of their own, no two of them alike, the
siblings may trade places: sorting brings their blocks back into order on every level. -/

set_option autoImplicit false

namespace TracePipeline

namespace Span

/-! ## Blocks of entries -/

/-- Neither a span nor one below it is the wrapper of a tool. -/
def Unwrapped (registry : Registry) (span : Span) : Prop :=
  ∀ inner ∈ span :: span.descendants, inner.wrapperTool? registry = none

theorem Unwrapped.child {registry : Registry} {span child : Span}
    (unwrapped : span.Unwrapped registry) (member : child ∈ span.children) :
    child.Unwrapped registry :=
  fun inner below =>
    unwrapped inner (.tail _ ((child_descendants_sublist member).subset below))

variable (rules : WalkRules) (context : Context)

/-- What a span contributes by itself when no tool is waited for. -/
def ownEntries (span : Span) : List OrderedStep :=
  (span.contribute rules.registry [] context {}).1.entries

/-- The entries of a span and of those inside it when no tool is waited for. -/
def block (span : Span) : List OrderedStep :=
  (span.walk rules [] context {}).1.entries

def branchBlock (span : Span) : List OrderedStep :=
  span.branchStep (finalize rules.merge (span.block rules context))

def insideEntries (span : Span) : List OrderedStep :=
  let context' := span.contextInside rules.registry context
  if span.descends rules.registry then
    if span.forks rules.registry then
      (span.stageStep context (span.children.flatMap (branchBlock rules context'))).entries
    else span.children.flatMap (block rules context')
  else []

variable {rules : WalkRules} {context : Context}

private theorem takenBy?_nil (span : Span) (state : WalkState) : span.takenBy? [] state = none := by
  unfold takenBy?
  cases Shell.ofStepType? span.stepType with
  | none => rfl
  | some shell =>
      cases span.shellScript? with
      | none => rfl
      | some script => rfl

theorem convertWith_fst (convert : Convert) (span : Span) (context : Context)
    (state state' : WalkState) :
    (span.convertWith convert context state).1 = (span.convertWith convert context state').1 := by
  rw [Visit.convertWith_entries, Visit.convertWith_entries]

private theorem convertLeaf_fst (converter : Converter) (span : Span) (context : Context)
    (state state' : WalkState) :
    (span.convertLeaf converter [] context state).1 =
      (span.convertLeaf converter [] context state').1 := by
  unfold convertLeaf
  split
  · rfl
  · simp only [takenBy?_nil]
    exact convertWith_fst _ _ _ _ _

/-- What has been kept only bears on tools. -/
theorem contribute_fst (registry : Registry) (span : Span) (context : Context)
    (state state' : WalkState) :
    (span.contribute registry [] context state).1 =
      (span.contribute registry [] context state').1 := by
  unfold contribute
  cases span.isStructural with
  | true => rfl
  | false =>
      simp only [Bool.false_eq_true, if_false]
      cases dispatched : registry.dispatch span.stepType
      case background => rfl
      case checkout converter =>
        simp only
        rw [convertLeaf_fst converter span context (span.inspect state) (span.inspect state')]
      case convert converter => exact convertLeaf_fst _ _ _ _ _
      case unknown => exact convertWith_fst _ _ _ _ _
      all_goals
        cases wraps : span.wrapperTool? registry with
        | none => rfl
        | some tool => rfl

private theorem walkAll_entries {spans : List Span}
    (each : ∀ span ∈ spans, ∀ context state,
      (span.walk rules [] context state).1.entries = span.block rules context)
    (state : WalkState) :
    (walkAll rules [] context spans state).1.entries = spans.flatMap (block rules context) := by
  induction spans generalizing state with
  | nil => rfl
  | cons span rest ih =>
      simp only [walkAll, Contribution.append_entries, List.flatMap_cons]
      rw [each span (.head _), ih fun span member => each span (.tail _ member)]

private theorem walkBranches_entries {spans : List Span}
    (each : ∀ span ∈ spans, ∀ context state,
      (span.walk rules [] context state).1.entries = span.block rules context)
    (state : WalkState) :
    let found := walkBranches rules [] context spans state
    found.1 = spans.flatMap (branchBlock rules context) ∧ found.2.1.entries = [] := by
  induction spans generalizing state with
  | nil => exact ⟨rfl, rfl⟩
  | cons span rest ih =>
      have others := ih fun span member => each span (.tail _ member)
      simp only [walkBranches, Contribution.append_entries, Contribution.withoutSteps_entries,
        List.flatMap_cons, List.nil_append, each span (.head _), others, branchBlock, and_self]

theorem walk_entries {span : Span} (unwrapped : span.Unwrapped rules.registry)
    (context : Context) (state : WalkState) :
    (span.walk rules [] context state).1.entries =
      span.ownEntries rules context ++ span.insideEntries rules context := by
  induction span using induct_children generalizing context state with
  | step span ih =>
      have each (child : Span) (member : child ∈ span.children) (context : Context)
          (state : WalkState) :
          (child.walk rules [] context state).1.entries = child.block rules context := by
        rw [block, ih child member (unwrapped.child member),
          ih child member (unwrapped.child member)]
      -- The span is no wrapper, so that no tool is waited for inside it either.
      have free : span.wrapperTool? rules.registry = none := unwrapped span (.head _)
      have waits (state : WalkState) : span.pendingWithin rules.registry [] state = [] := by
        rw [pendingWithin, free]
      have own := contribute_fst rules.registry span context state {}
      rw [walk_eq_contribute, ownEntries, insideEntries, ← own]
      by_cases onward : span.descends rules.registry
      case neg => simp only [if_neg onward, List.append_nil]
      by_cases forks : span.forks rules.registry
      · simp only [if_pos onward, if_pos forks, waits, Contribution.append_entries,
          walkBranches_entries each, List.nil_append]
      · simp only [if_pos onward, if_neg forks, waits, Contribution.append_entries,
          walkAll_entries each]

theorem block_eq {span : Span} (unwrapped : span.Unwrapped rules.registry) (context : Context) :
    span.block rules context = span.ownEntries rules context ++ span.insideEntries rules context :=
  walk_entries unwrapped context {}

/-! ## Order ids of blocks -/

theorem order_of_mem_ofSteps {order : Int} {steps : List Step} {entry : OrderedStep}
    (member : entry ∈ (Contribution.ofSteps order steps).entries) : entry.order = order := by
  obtain ⟨step, -, rfl⟩ := List.mem_map.mp member
  rfl

theorem order_of_mem_convertWith {convert : Convert} {span : Span} {context : Context}
    {state : WalkState} {entry : OrderedStep}
    (member : entry ∈ (span.convertWith convert context state).1.entries) :
    entry.order = span.order := by
  rw [Visit.convertWith_entries] at member
  exact order_of_mem_ofSteps member

private theorem order_of_mem_convertLeaf {converter : Converter} {pending : List PendingTool}
    {span : Span} {context : Context} {state : WalkState} {entry : OrderedStep}
    (member : entry ∈ (span.convertLeaf converter pending context state).1.entries) :
    entry.order = span.order := by
  unfold convertLeaf at member
  split at member
  · cases member
  · split at member
    · exact order_of_mem_ofSteps member
    · exact order_of_mem_convertWith member

private theorem order_of_mem_ownEntries {span : Span} {entry : OrderedStep}
    (member : entry ∈ span.ownEntries rules context) : entry.order = span.order := by
  unfold ownEntries contribute at member
  split at member
  · cases member
  cases dispatched : rules.registry.dispatch span.stepType
  all_goals simp only [dispatched] at member
  case background => exact order_of_mem_ofSteps member
  case checkout converter =>
    rw [withCheckout_entries] at member
    exact order_of_mem_convertLeaf member
  case convert converter => exact order_of_mem_convertLeaf member
  case unknown => exact order_of_mem_convertWith member
  all_goals
    split at member
    all_goals cases member

private theorem order_of_mem_branchStep {span : Span} {steps : List Step} {entry : OrderedStep}
    (member : entry ∈ span.branchStep steps) : entry.order = span.order := by
  unfold branchStep at member
  split at member
  · cases member
  all_goals
    rw [List.mem_singleton] at member
    rw [member]

private theorem order_of_mem_stageStep {span : Span} {branches : List OrderedStep}
    {entry : OrderedStep}
    (member : entry ∈ (span.stageStep context branches).entries) : entry.order = span.order := by
  unfold stageStep at member
  split at member
  · cases member
  · exact order_of_mem_ofSteps member

/-- The entries of a block have the order ids of the spans that they come from. -/
theorem order_of_mem_block {span : Span} (unwrapped : span.Unwrapped rules.registry)
    {context : Context} {entry : OrderedStep} (member : entry ∈ span.block rules context) :
    ∃ inner ∈ span :: span.descendants, entry.order = inner.order := by
  induction span using induct_children generalizing context with
  | step span ih =>
      rw [block_eq unwrapped, List.mem_append] at member
      rcases member with own | inside
      · exact ⟨span, .head _, order_of_mem_ownEntries own⟩
      unfold insideEntries at inside
      split at inside
      case isFalse => cases inside
      split at inside
      · exact ⟨span, .head _, order_of_mem_stageStep inside⟩
      · obtain ⟨child, present, below⟩ := List.mem_flatMap.mp inside
        obtain ⟨inner, among, same⟩ := ih child present (unwrapped.child present) below
        exact ⟨inner, .tail _ ((child_descendants_sublist present).subset among), same⟩

/-- Spans with order ids of their own, no two of them alike. -/
structure HaveOrders (spans : List Span) : Prop where
  direct : ∀ span ∈ spans, span.directOrder?.isSome
  distinct : (spans.map directOrder?).Nodup

private theorem directOrder?_eq_order {span : Span} (direct : span.directOrder?.isSome) :
    span.directOrder? = some span.order := by
  obtain ⟨order, own⟩ := Option.isSome_iff_exists.mp direct
  rw [Span.order, own]

namespace HaveOrders

variable {spans : List Span}

private theorem sublist {part : List Span} (orders : HaveOrders spans)
    (among : part.Sublist spans) :
    HaveOrders part where
  direct := fun span member => orders.direct span (among.subset member)
  distinct := (among.map directOrder?).nodup orders.distinct

private theorem pairwise_order (orders : HaveOrders spans) :
    spans.Pairwise fun one other => one.order ≠ other.order := by
  refine (List.pairwise_map.mp orders.distinct).imp_of_mem ?_
  intro one other oneMember otherMember differ same
  apply differ
  rw [directOrder?_eq_order (orders.direct one oneMember),
    directOrder?_eq_order (orders.direct other otherMember), same]

private theorem child {span child : Span} (orders : HaveOrders span.descendants)
    (member : child ∈ span.children) : HaveOrders child.descendants :=
  orders.sublist ((List.sublist_cons_self _ _).trans (child_descendants_sublist member))

/-- Blocks of siblings have no order id in common. -/
theorem pairwise_apart (orders : HaveOrders (descendantsOf spans))
    {block : Span → List OrderedStep}
    (within : ∀ span ∈ spans, ∀ entry ∈ block span,
      ∃ inner ∈ span :: span.descendants, entry.order = inner.order) :
    spans.Pairwise fun one other => OrderedStep.Apart (block one) (block other) := by
  have differ := orders.pairwise_order
  rw [descendantsOf_eq_flatMap, List.pairwise_flatMap] at differ
  refine differ.2.imp_of_mem ?_
  intro one other oneMember otherMember differ entry member entry' member' same
  obtain ⟨inner, below, eq⟩ := within one oneMember entry member
  obtain ⟨inner', below', eq'⟩ := within other otherMember entry' member'
  exact differ inner below inner' below' (eq.symm.trans (same.trans eq'))

end HaveOrders

/-! ## Shuffled levels -/

variable (rules) in
/-- Children that make the same sorted level, be it as branches or as steps. -/
structure SameLevel (children children' : List Span) : Prop where
  parallel : isParallel children' = isParallel children
  steps : ∀ context, OrderedStep.sort (children'.flatMap (block rules context)) =
    OrderedStep.sort (children.flatMap (block rules context))
  branches : ∀ context, OrderedStep.sort (children'.flatMap (branchBlock rules context)) =
    OrderedStep.sort (children.flatMap (branchBlock rules context))

private theorem isParallel_perm {children children' : List Span} (same : children'.Perm children) :
    isParallel children' = isParallel children := by
  unfold isParallel
  rw [same.length_eq, same.any_eq]

private theorem sameLevel_of_perm {children children' : List Span} (same : children'.Perm children)
    (orders : HaveOrders (descendantsOf children))
    (unwrapped : ∀ child ∈ children, child.Unwrapped rules.registry) :
    SameLevel rules children children' where
  parallel := isParallel_perm same
  steps := fun _ => OrderedStep.sort_flatMap_perm same <|
    orders.pairwise_apart fun child member _ present =>
      order_of_mem_block (unwrapped child member) present
  branches := fun _ => OrderedStep.sort_flatMap_perm same <|
    orders.pairwise_apart fun child _ _ present =>
      ⟨child, .head _, order_of_mem_branchStep present⟩

private theorem sameLevel_replace {change : Span → List Span → Prop} {child child' : Span}
    (edited : Edited change child child') (order : child'.order = child.order)
    (same : ∀ context, OrderedStep.sort (child'.block rules context) =
      OrderedStep.sort (child.block rules context))
    (before after : List Span) :
    SameLevel rules (before ++ child :: after) (before ++ child' :: after) where
  parallel := isParallel_replace edited before after
  steps := by
    intro context
    simp only [List.flatMap_append, List.flatMap_cons]
    exact OrderedStep.sort_append_congr rfl (OrderedStep.sort_append_congr (same context) rfl)
  branches := by
    intro context
    have branch : child'.branchBlock rules context = child.branchBlock rules context := by
      simp only [branchBlock, edited.branchStep_eq order, finalize, sortedSteps, same context]
    simp only [List.flatMap_append, List.flatMap_cons, branch]

/-! ## Shuffled spans -/

private theorem ownEntries_withChildren (locals : rules.registry.Local) {span : Span}
    {children : List Span} (free : span.wrapperTool? rules.registry = none) (context : Context) :
    (span.withChildren children).ownEntries rules context = span.ownEntries rules context := by
  unfold ownEntries
  rw [contribute_withChildren locals fun wraps => absurd free wraps]

theorem stageStep_congr (span : Span) (context : Context) {branches branches' : List OrderedStep}
    (same : OrderedStep.sort branches' = OrderedStep.sort branches) :
    span.stageStep context branches' = span.stageStep context branches := by
  have empty : branches'.isEmpty = branches.isEmpty := by
    rw [← (OrderedStep.sort_perm branches').isEmpty_eq, same,
      (OrderedStep.sort_perm branches).isEmpty_eq]
  simp only [stageStep, empty, sortedSteps, same]

private theorem sortedSteps_stageStep_withChildren (span : Span) (children : List Span)
    (context : Context) (branches : List OrderedStep) :
    sortedSteps ((span.withChildren children).stageStep context branches).entries =
      sortedSteps (span.stageStep context branches).entries := by
  simp only [stageStep, withChildren_infoFor]
  cases branches.isEmpty with
  | true => rfl
  | false => rfl

private theorem ownEntries_of_forks {span : Span} (forks : span.forks rules.registry)
    (context : Context) : span.ownEntries rules context = [] := by
  unfold Span.forks at forks
  unfold ownEntries contribute
  split
  · rfl
  cases dispatched : rules.registry.dispatch span.stepType with
  | stage => simp [dispatched, wrapperTool?]
  | _ => simp [dispatched] at forks

section

variable (locals : rules.registry.Local) {span : Span} {children : List Span}
  (unwrapped : span.Unwrapped rules.registry)
  (unwrapped' : (span.withChildren children).Unwrapped rules.registry)
  (same : SameLevel rules span.children children)

include locals unwrapped unwrapped' same

/-- A span whose children make the same level makes the same sorted block. Only a parallel stage
depends on its order id too. -/
theorem sort_block_withChildren
    (order : span.forks rules.registry → (span.withChildren children).order = span.order)
    (context : Context) :
    OrderedStep.sort ((span.withChildren children).block rules context) =
      OrderedStep.sort (span.block rules context) := by
  rw [block_eq unwrapped', block_eq unwrapped,
    ownEntries_withChildren locals (unwrapped span (.head _))]
  refine OrderedStep.sort_append_congr rfl ?_
  simp only [insideEntries, forks_withChildren same.parallel, withChildren_descends,
    withChildren_contextInside, withChildren_children]
  by_cases onward : span.descends rules.registry
  case neg => simp only [if_neg onward]
  by_cases forks : span.forks rules.registry
  · simp only [if_pos onward, if_pos forks]
    rw [stageStep_withChildren (order forks), stageStep_congr span context (same.branches _)]
  · simp only [if_pos onward, if_neg forks]
    exact same.steps _

private theorem sortedSteps_block_withChildren (context : Context) :
    sortedSteps ((span.withChildren children).block rules context) =
      sortedSteps (span.block rules context) := by
  by_cases forks : span.forks rules.registry
  -- A stage without an order id may get another one from its markers, but it is the only step.
  · have forks' : (span.withChildren children).forks rules.registry :=
      (forks_withChildren same.parallel).trans forks
    rw [block_eq unwrapped', block_eq unwrapped, ownEntries_of_forks forks,
      ownEntries_of_forks forks']
    simp only [insideEntries, forks', forks, descends_of_forks forks, withChildren_descends,
      withChildren_contextInside, withChildren_children, if_true, List.nil_append]
    rw [sortedSteps_stageStep_withChildren, stageStep_congr span context (same.branches _)]
  · rw [sortedSteps, sortedSteps, sort_block_withChildren locals unwrapped unwrapped' same
      fun parallel => absurd parallel forks]

end

/-! ## Shuffled traces -/

def Shuffles (span : Span) (children : List Span) : Prop :=
  children.Perm span.children

/-- A trace in which order ids decide about the order of siblings: no tool is waited for, and all
spans below the root have order ids of their own, no two of them alike. -/
structure OrdersDecide (registry : Registry) (root : Span) : Prop where
  unwrapped : root.Unwrapped registry
  orders : HaveOrders root.descendants

private theorem OrdersDecide.child {registry : Registry} {span child : Span}
    (decided : span.OrdersDecide registry) (member : child ∈ span.children) :
    child.OrdersDecide registry where
  unwrapped := decided.unwrapped.child member
  orders := decided.orders.child member

theorem Edited.descendants_map_perm {α : Type} {tell : Span → α}
    (own : ∀ span children, tell (span.withChildren children) = tell span) {span span' : Span}
    (edited : Edited Shuffles span span') :
    (span'.descendants.map tell).Perm (span.descendants.map tell) := by
  induction edited with
  | @here span children changed =>
      rw [descendants_eq, descendants_eq, withChildren_children, descendantsOf_eq_flatMap,
        descendantsOf_eq_flatMap]
      exact (changed.flatMap_right _).map tell
  | @inside span child child' before after split edited ih =>
      have told : tell child' = tell child := edited.congr tell own
      rw [descendants_eq, descendants_eq, withChildren_children, split]
      simp only [descendantsOf_append, descendantsOf, List.map_append, List.map_cons, told]
      exact .append_left _ (.cons _ (ih.append_right _))

private theorem Edited.forall_descendants {property : Span → Prop}
    (own : ∀ span children, property (span.withChildren children) = property span)
    {span span' : Span} (edited : Edited Shuffles span span')
    (each : ∀ inner ∈ span.descendants, property inner) :
    ∀ inner ∈ span'.descendants, property inner := by
  intro inner member
  have told := (edited.descendants_map_perm own).mem_iff.mp (List.mem_map_of_mem member)
  obtain ⟨original, present, same⟩ := List.mem_map.mp told
  rw [← same]
  exact each original present

theorem OrdersDecide.edited {registry : Registry} {root root' : Span}
    (decided : root.OrdersDecide registry) (edited : Edited Shuffles root root') :
    root'.OrdersDecide registry where
  unwrapped := by
    rw [Unwrapped, List.forall_mem_cons]
    constructor
    · rw [edited.eq_withChildren, withChildren_wrapperTool?]
      exact decided.unwrapped root (.head _)
    · exact edited.forall_descendants (fun _ _ => rfl) fun inner member =>
        decided.unwrapped inner (.tail _ member)
  orders := by
    have ids : (root'.descendants.map directOrder?).Perm (root.descendants.map directOrder?) :=
      edited.descendants_map_perm fun _ _ => rfl
    exact ⟨edited.forall_descendants (fun _ _ => rfl) decided.orders.direct,
      ids.nodup_iff.mpr decided.orders.distinct⟩

/-- A shuffle anywhere below a span leaves its level as it is once it is sorted. -/
theorem Edited.sameLevel (locals : rules.registry.Local) {span span' : Span}
    (decided : span.OrdersDecide rules.registry) (edited : Edited Shuffles span span') :
    SameLevel rules span.children span'.children := by
  induction edited with
  | @here span children changed =>
      have orders := decided.orders
      rw [descendants_eq] at orders
      exact sameLevel_of_perm changed orders fun child member => decided.unwrapped.child member
  | @inside span child child' before after split edited ih =>
      have member : child ∈ span.children := by
        rw [split]
        exact List.mem_append_right _ (.head _)
      have inside := decided.child member
      -- The edited child has an order id of its own, whatever markers it has got inside.
      have direct : child.directOrder?.isSome :=
        decided.orders.direct child ((child_descendants_sublist member).subset (.head _))
      have order : (child.withChildren child'.children).order = child.order :=
        order_withChildren_of_direct direct
      have unwrapped' := (inside.edited edited).unwrapped
      rw [edited.eq_withChildren] at unwrapped'
      have sorted (context : Context) :
          OrderedStep.sort ((child.withChildren child'.children).block rules context) =
            OrderedStep.sort (child.block rules context) :=
        sort_block_withChildren locals inside.unwrapped unwrapped' (ih inside) (fun _ => order)
          context
      rw [← edited.eq_withChildren] at order sorted
      rw [split]
      exact sameLevel_replace edited order sorted before after

end Span

/-! ## Conversions -/

namespace Conversion

theorem steps_eq_finalize_block (registry : Registry) (options : Options) (root : Span) :
    (ofSpan registry options root).pipeline.steps =
      finalize options.mergeSteps
        (root.block ⟨registry, options.mergeSteps⟩ (.root options)) :=
  List.append_nil _

theorem steps_edited {registry : Registry} (locals : registry.Local) (options : Options)
    {root root' : Span} (decided : root.OrdersDecide registry)
    (edited : Span.Edited Span.Shuffles root root') :
    (ofSpan registry options root').pipeline.steps =
      (ofSpan registry options root).pipeline.steps := by
  have unwrapped' := (decided.edited edited).unwrapped
  have level : Span.SameLevel ⟨registry, options.mergeSteps⟩ root.children root'.children :=
    edited.sameLevel locals decided
  rw [edited.eq_withChildren] at unwrapped' ⊢
  have sorted := Span.sortedSteps_block_withChildren locals decided.unwrapped unwrapped' level
    (.root options)
  rw [steps_eq_finalize_block, steps_eq_finalize_block, finalize, finalize, sorted]

/-- With a local registry, one whose converters make the same steps whatever spans are inside, the
steps of a conversion do not depend on the order of siblings, however many of them trade places on
whatever levels, when order ids decide. -/
theorem steps_shuffled {registry : Registry} (locals : registry.Local) (options : Options)
    {root root' : Span} (decided : root.OrdersDecide registry)
    (shuffled : Relation.ReflTransGen (Span.Edited Span.Shuffles) root root') :
    (ofSpan registry options root').pipeline.steps =
      (ofSpan registry options root).pipeline.steps := by
  have both : root'.OrdersDecide registry ∧
      (ofSpan registry options root').pipeline.steps =
        (ofSpan registry options root).pipeline.steps := by
    induction shuffled with
    | refl => exact ⟨decided, rfl⟩
    | tail _ edited ih =>
        exact ⟨ih.1.edited edited, (steps_edited locals options ih.1 edited).trans ih.2⟩
  exact both.2

def shellAt (order : String) : Span where
  typeName := "sh"
  spanId := order
  traceId := "t"
  parentSpanId := ""
  parent := ""
  name := "shell"
  spanName := ""
  attributes := [("step.id", order)]
  parameters := [("script", .string "make")]
  children := []

def branchAt (order : String) (children : List Span) : Span where
  typeName := "parallel"
  spanId := order
  traceId := "t"
  parentSpanId := ""
  parent := ""
  name := "branch"
  spanName := ""
  attributes := [("step.id", order)]
  parameters := []
  children := children

/-- A stage that only a marker below it can give an order id. -/
def stageAround (children : List Span) : Span where
  typeName := "stage"
  spanId := "root"
  traceId := "t"
  parentSpanId := ""
  parent := ""
  name := "stage"
  spanName := ""
  attributes := [("stage", "stage")]
  parameters := []
  children := children

def shellRegistry : Registry :=
  (Registry.empty.register "sh" (Converter.shell .sh)).setFallback Converter.echo

def stageInOrder : Span :=
  stageAround [branchAt "2" [shellAt "3", shellAt "4"], branchAt "5" [shellAt "6"]]

def stageOutOfOrder : Span :=
  stageAround [branchAt "5" [shellAt "6"], branchAt "2" [shellAt "4", shellAt "3"]]

/-- Two branches of a stage trade places, and the shells of one branch. -/
theorem steps_shuffled_branches :
    shellRegistry.Local ∧ stageInOrder.OrdersDecide shellRegistry ∧
      Relation.ReflTransGen (Span.Edited Span.Shuffles) stageInOrder stageOutOfOrder ∧
        ∀ options, (ofSpan shellRegistry options stageOutOfOrder).pipeline.steps =
          (ofSpan shellRegistry options stageInOrder).pipeline.steps := by
  have locals : shellRegistry.Local :=
    (Registry.empty_local.register "sh" fun _ _ _ => rfl).setFallback fun _ _ _ => rfl
  have decided : stageInOrder.OrdersDecide shellRegistry := by
    refine ⟨?_, ⟨by decide +kernel, by decide +kernel⟩⟩
    unfold Span.Unwrapped
    decide +kernel
  have shuffled : Relation.ReflTransGen (Span.Edited Span.Shuffles) stageInOrder
      stageOutOfOrder := by
    have branches : Span.Edited Span.Shuffles stageInOrder
        (stageAround [branchAt "5" [shellAt "6"], branchAt "2" [shellAt "3", shellAt "4"]]) :=
      .here (.swap _ _ _)
    have shells : Span.Edited Span.Shuffles (branchAt "2" [shellAt "3", shellAt "4"])
        (branchAt "2" [shellAt "4", shellAt "3"]) :=
      .here (.swap _ _ _)
    exact .tail (.tail .refl branches)
      (.inside (show _ = [branchAt "5" [shellAt "6"]] ++ _ :: [] from rfl) shells)
  exact ⟨locals, decided, shuffled, fun options => steps_shuffled locals options decided shuffled⟩

def groupOf (children : List Span) : Span :=
  { stageAround children with typeName := "group" }

/-- A registry that is not local can tell the order of siblings, whatever their order ids are. -/
theorem not_forall_steps_shuffled :
    ¬∀ (registry : Registry) (options : Options) (root root' : Span),
      root.OrdersDecide registry →
        Relation.ReflTransGen (Span.Edited Span.Shuffles) root root' →
          (ofSpan registry options root').pipeline.steps =
            (ofSpan registry options root).pipeline.steps := by
  intro same
  have decided : (groupOf [shellAt "1", shellAt "2"]).OrdersDecide .listing := by
    refine ⟨?_, ⟨by decide +kernel, by decide +kernel⟩⟩
    unfold Span.Unwrapped
    decide +kernel
  have shuffled : Span.Edited Span.Shuffles (groupOf [shellAt "1", shellAt "2"])
      (groupOf [shellAt "2", shellAt "1"]) :=
    .here (.swap _ _ _)
  have told := same .listing {} _ _ decided (.single shuffled)
  have differ : (ofSpan .listing {} (groupOf [shellAt "2", shellAt "1"])).pipeline.steps ≠
      (ofSpan .listing {} (groupOf [shellAt "1", shellAt "2"])).pipeline.steps := by
    decide +kernel
  exact differ told

end Conversion

end TracePipeline
