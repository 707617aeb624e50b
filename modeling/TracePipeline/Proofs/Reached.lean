import TracePipeline.Walk

/-! The spans that a walk reaches. Only a span with a converter hides what is below it. A visit
knows its span, the reached spans around it and its place below the root, so that two spans that
look alike are two visits. -/

set_option autoImplicit false

namespace TracePipeline

/-! ## What a span means for the spans inside -/

namespace Span

variable (registry : Registry)

/-- Whether a walk goes on to the children of a span. Only a span with a converter ends it. -/
def descends (span : Span) : Bool :=
  span.isStructural ||
    match registry.dispatch span.stepType with
    | .checkout _ | .convert _ => false
    | _ => true

/-- The way a span changes the context of the spans inside it. -/
def scope? (span : Span) : Option Scope :=
  if span.isStructural then none
  else
    match registry.dispatch span.stepType with
    | .scope scope => some scope
    | _ => none

def wrapperTool? (span : Span) : Option Tool :=
  if span.isStructural then none
  else
    match registry.dispatch span.stepType with
    | .toolWrapper tool => some tool
    | .wrap => span.wrappedTool?
    | _ => none

/-- Whether the children of a span become the branches of one step. -/
def forks (span : Span) : Bool :=
  !span.isStructural &&
    match registry.dispatch span.stepType with
    | .stage => isParallel span.children
    | _ => false

/-- Whether a span is one for a step: a task beside its children, or something to convert. -/
def isProducer (span : Span) : Bool :=
  !span.isStructural &&
    match registry.dispatch span.stepType with
    | .background | .checkout _ | .convert _ | .unknown => true
    | _ => false

def contextInside (span : Span) (context : Context) : Context :=
  match span.scope? registry with
  | some scope => context.scoped scope span
  | none => context

theorem descends_of_forks {registry : Registry} {span : Span} (forks : span.forks registry) :
    span.descends registry := by
  unfold Span.forks at forks
  unfold descends
  cases dispatched : registry.dispatch span.stepType with
  | stage => simp
  | _ => simp [dispatched] at forks

theorem contextInside_of_wrapperTool? {registry : Registry} {span : Span} {tool : Tool}
    (wraps : span.wrapperTool? registry = some tool) (context : Context) :
    span.contextInside registry context = context := by
  unfold wrapperTool? at wraps
  unfold contextInside scope?
  split at wraps
  · cases wraps
  cases dispatched : registry.dispatch span.stepType with
  | scope scope => simp [dispatched] at wraps
  | _ => simp

theorem ordinary_of_wrapperTool? {registry : Registry} {span : Span}
    (wraps : (span.wrapperTool? registry).isSome) : span.isStructural = false := by
  unfold wrapperTool? at wraps
  cases structural : span.isStructural with
  | false => rfl
  | true => simp [structural] at wraps

theorem descends_of_wrapperTool? {registry : Registry} {span : Span}
    (wraps : (span.wrapperTool? registry).isSome) : span.descends registry := by
  unfold wrapperTool? at wraps
  unfold descends
  split at wraps
  · cases wraps
  cases dispatched : registry.dispatch span.stepType with
  | checkout converter => simp [dispatched] at wraps
  | convert converter => simp [dispatched] at wraps
  | _ => simp

/-- A property of all spans follows from the children to the parent. -/
theorem induct_children {motive : Span → Prop}
    (step : ∀ span, (∀ child ∈ span.children, motive child) → motive span) (span : Span) :
    motive span := by
  refine @Span.rec motive (fun spans => ∀ child ∈ spans, motive child) ?_ ?_ ?_ span
  · intro _ _ _ _ _ _ _ _ _ children inside
    exact step _ inside
  · intro child member
    cases member
  · intro first rest firstHolds restHolds child member
    rcases List.mem_cons.mp member with rfl | later
    · exact firstHolds
    · exact restHolds child later

end Span

/-! ## Visits -/

/-- A reached span, with the numbers of the children that lead to it, the last one first, and the
reached spans around it, the nearest first. -/
structure Visit where
  path : List Nat
  span : Span
  around : List Span

namespace Visit

def child (visit : Visit) (index : Nat) (span : Span) : Visit where
  path := index :: visit.path
  span := span
  around := visit.span :: visit.around

def root (span : Span) : Visit :=
  ⟨[], span, []⟩

end Visit

/-- A visit is reached from another one if each span on the way there lets the walk go on. -/
inductive Reached (registry : Registry) (start : Visit) : Visit → Prop where
  | start : Reached registry start start
  | child {visit : Visit} {index : Nat} {span : Span} (reached : Reached registry start visit)
      (onward : visit.span.descends registry) (found : visit.span.children[index]? = some span) :
      Reached registry start (visit.child index span)

namespace Reached

variable {registry : Registry} {start middle visit : Visit}

theorem trans (first : Reached registry start middle) (second : Reached registry middle visit) :
    Reached registry start visit := by
  induction second with
  | start => exact first
  | child _ onward found ih => exact ih.child onward found

theorem path_suffix (reached : Reached registry start visit) : start.path <:+ visit.path := by
  induction reached with
  | start => exact List.suffix_refl _
  | child _ _ _ ih => exact ih.trans (List.suffix_cons _ _)

end Reached

namespace Span

mutual

/-- The visits of a span and of what is reached below it, in walk order. -/
def visits (registry : Registry) (path : List Nat) (around : List Span) (span : Span) :
    List Visit :=
  match span with
  | span@{ children, .. } =>
    ⟨path, span, around⟩ ::
      if span.descends registry then visitsFrom registry path (span :: around) 0 children else []
termination_by structural span

/-- The visits of children and of what is reached below them, in walk order. The first child has
the number `index`. -/
def visitsFrom (registry : Registry) (path : List Nat) (around : List Span) (index : Nat)
    (spans : List Span) : List Visit :=
  match spans with
  | [] => []
  | span :: rest =>
    visits registry (index :: path) around span ++ visitsFrom registry path around (index + 1) rest
termination_by structural spans

end

theorem visits_eq (registry : Registry) (path : List Nat) (around : List Span) (span : Span) :
    span.visits registry path around =
      ⟨path, span, around⟩ ::
        if span.descends registry then
          visitsFrom registry path (span :: around) 0 span.children
        else [] := by
  cases span
  rw [visits]

theorem mem_visitsFrom_iff {registry : Registry} {path : List Nat} {around spans : List Span}
    {start : Nat} {visit : Visit} :
    visit ∈ visitsFrom registry path around start spans ↔
      ∃ (index : Nat) (span : Span), spans[index]? = some span ∧
        visit ∈ span.visits registry ((start + index) :: path) around := by
  induction spans generalizing start with
  | nil => simp [visitsFrom]
  | cons first rest ih =>
      rw [visitsFrom, List.mem_append, ih]
      constructor
      · rintro (own | ⟨index, span, found, member⟩)
        · exact ⟨0, first, rfl, own⟩
        · refine ⟨index + 1, span, found, ?_⟩
          rwa [Nat.add_right_comm] at member
      · rintro ⟨index, span, found, member⟩
        cases index with
        | zero =>
            cases found
            exact .inl member
        | succ index =>
            refine .inr ⟨index, span, found, ?_⟩
            rwa [Nat.add_right_comm]

/-- A visit is that of the span itself, or it is below a child when the walk goes on. -/
theorem mem_visits_step_iff {registry : Registry} {path : List Nat} {around : List Span}
    {span : Span} {visit : Visit} :
    visit ∈ span.visits registry path around ↔
      visit = ⟨path, span, around⟩ ∨
        span.descends registry ∧ ∃ (index : Nat) (child : Span),
          span.children[index]? = some child ∧
            visit ∈ child.visits registry (index :: path) (span :: around) := by
  rw [visits_eq, List.mem_cons]
  by_cases onward : span.descends registry
  · simp [onward, mem_visitsFrom_iff]
  · simp [onward]

theorem reached_of_mem_visits {registry : Registry} {path : List Nat} {around : List Span}
    {span : Span} {visit : Visit} (member : visit ∈ span.visits registry path around) :
    Reached registry ⟨path, span, around⟩ visit := by
  induction span using induct_children generalizing path around with
  | step span ih =>
      rcases mem_visits_step_iff.mp member with rfl | ⟨onward, index, child, found, below⟩
      · exact .start
      · have first : Reached registry ⟨path, span, around⟩
            ⟨index :: path, child, span :: around⟩ := .child .start onward found
        exact first.trans (ih child (List.mem_of_getElem? found) below)

/-- The visits of a span hold the children of each one that lets the walk go on. -/
theorem child_mem_visits {registry : Registry} {path : List Nat} {around : List Span} {span : Span}
    {visit : Visit} {index : Nat} {inner : Span}
    (member : visit ∈ span.visits registry path around) (onward : visit.span.descends registry)
    (found : visit.span.children[index]? = some inner) :
    visit.child index inner ∈ span.visits registry path around := by
  induction span using induct_children generalizing path around with
  | step span ih =>
      rw [mem_visits_step_iff]
      rcases mem_visits_step_iff.mp member with rfl | ⟨descends, place, child, present, below⟩
      · exact .inr ⟨onward, index, inner, found, mem_visits_step_iff.mpr (.inl rfl)⟩
      · exact .inr ⟨descends, place, child, present,
          ih child (List.mem_of_getElem? present) below⟩

theorem mem_visits_iff {registry : Registry} {path : List Nat} {around : List Span} {span : Span}
    {visit : Visit} :
    visit ∈ span.visits registry path around ↔ Reached registry ⟨path, span, around⟩ visit := by
  constructor
  · exact reached_of_mem_visits
  · intro reached
    induction reached with
    | start => exact mem_visits_step_iff.mpr (.inl rfl)
    | child _ onward found ih => exact child_mem_visits ih onward found

theorem nodup_paths_visitsFrom {registry : Registry} {path : List Nat} {around spans : List Span}
    (start : Nat)
    (each : ∀ span ∈ spans, ∀ path around,
      ((span.visits registry path around).map Visit.path).Nodup) :
    ((visitsFrom registry path around start spans).map Visit.path).Nodup := by
  induction spans generalizing start with
  | nil => simp [visitsFrom]
  | cons first rest ih =>
      rw [visitsFrom, List.map_append, List.nodup_append]
      have others := ih (start + 1) fun span member => each span (.tail _ member)
      refine ⟨each first (.head _) _ _, others, ?_⟩
      -- A path below one child ends with the number of that child.
      intro one oneMember other otherMember same
      obtain ⟨visit, member, rfl⟩ := List.mem_map.mp oneMember
      obtain ⟨visit', member', rfl⟩ := List.mem_map.mp otherMember
      obtain ⟨index, span, -, member'⟩ := mem_visitsFrom_iff.mp member'
      have below := (reached_of_mem_visits member).path_suffix
      have below' := (reached_of_mem_visits member').path_suffix
      rw [← same] at below'
      have equal := (List.suffix_of_suffix_length_le below below' (by simp)).eq_of_length (by simp)
      simp at equal
      omega

/-- Every reached span has one visit. -/
theorem nodup_paths_visits (registry : Registry) (path : List Nat) (around : List Span)
    (span : Span) : ((span.visits registry path around).map Visit.path).Nodup := by
  induction span using induct_children generalizing path around with
  | step span ih =>
      rw [visits_eq, List.map_cons, List.nodup_cons]
      by_cases onward : span.descends registry
      · rw [if_pos onward]
        refine ⟨?_, nodup_paths_visitsFrom 0 fun child member path around =>
          ih child member path around⟩
        intro member
        obtain ⟨visit, below, same⟩ := List.mem_map.mp member
        obtain ⟨index, child, -, below⟩ := mem_visitsFrom_iff.mp below
        have longer := (reached_of_mem_visits below).path_suffix.length_le
        rw [same, List.length_cons] at longer
        exact absurd longer (Nat.not_succ_le_self _)
      · simp [onward]

theorem child_descendants_sublist {span child : Span} (member : child ∈ span.children) :
    (child :: child.descendants).Sublist span.descendants := by
  rw [descendants_eq span, descendantsOf_eq_flatMap]
  exact List.sublist_flatten_of_mem (List.mem_map_of_mem member)

private theorem visitsFrom_spans_sublist {registry : Registry} {path : List Nat}
    {around spans : List Span} (start : Nat)
    (each : ∀ span ∈ spans, ∀ path around,
      ((span.visits registry path around).map Visit.span).Sublist (span :: span.descendants)) :
    ((visitsFrom registry path around start spans).map Visit.span).Sublist
      (descendantsOf spans) := by
  induction spans generalizing start with
  | nil => exact .refl _
  | cons first rest ih =>
      rw [visitsFrom, List.map_append, descendantsOf, ← List.cons_append]
      exact (each first (.head _) _ _).append
        (ih (start + 1) fun span member => each span (.tail _ member))

/-- The reached spans are some of all spans, in the same order. -/
theorem visits_spans_sublist (registry : Registry) (path : List Nat) (around : List Span)
    (span : Span) :
    ((span.visits registry path around).map Visit.span).Sublist (span :: span.descendants) := by
  induction span using induct_children generalizing path around with
  | step span ih =>
      rw [visits_eq, List.map_cons, descendants_eq]
      by_cases onward : span.descends registry
      · rw [if_pos onward]
        exact (visitsFrom_spans_sublist 0 fun child member path around =>
          ih child member path around).cons_cons _
      · simp [onward]

end Span

end TracePipeline
