import TracePipeline.Proofs.WalkStep

/-! Edits of a trace. An edit gives one span, at any depth, other children; all fields of all other
spans stay. What a span contributes by itself is told from its fields as long as the converters
are, so that an edit can only matter by what is inside the edited span. -/

set_option autoImplicit false

namespace TracePipeline

namespace Span

def withChildren (span : Span) (children : List Span) : Span :=
  { span with children := children }

section

variable (span : Span) (children : List Span)

@[simp] theorem withChildren_children : (span.withChildren children).children = children := rfl

@[simp] theorem withChildren_stepType :
    (span.withChildren children).stepType = span.stepType := rfl

@[simp] theorem withChildren_isStructural :
    (span.withChildren children).isStructural = span.isStructural := rfl

@[simp] theorem withChildren_directOrder? :
    (span.withChildren children).directOrder? = span.directOrder? := rfl

@[simp] theorem withChildren_infoFor (context : Context) :
    Converter.infoFor (span.withChildren children) context = Converter.infoFor span context := rfl

@[simp] theorem withChildren_inspect (state : WalkState) :
    (span.withChildren children).inspect state = span.inspect state := rfl

@[simp] theorem withChildren_descends (registry : Registry) :
    (span.withChildren children).descends registry = span.descends registry := rfl

@[simp] theorem withChildren_wrapperTool? (registry : Registry) :
    (span.withChildren children).wrapperTool? registry = span.wrapperTool? registry := rfl

@[simp] theorem withChildren_contextInside (registry : Registry) (context : Context) :
    (span.withChildren children).contextInside registry context =
      span.contextInside registry context := rfl

@[simp] theorem withChildren_pendingWithin (registry : Registry) (pending : List PendingTool)
    (state : WalkState) :
    (span.withChildren children).pendingWithin registry pending state =
      span.pendingWithin registry pending state := rfl

end

/-- One trace is another one in which some span has got other children. The change tells which
children a span may get. -/
inductive Edited (change : Span → List Span → Prop) : Span → Span → Prop where
  | here {span : Span} {children : List Span} (changed : change span children) :
      Edited change span (span.withChildren children)
  | inside {span child child' : Span} {before after : List Span}
      (split : span.children = before ++ child :: after) (edited : Edited change child child') :
      Edited change span (span.withChildren (before ++ child' :: after))

theorem Edited.eq_withChildren {change : Span → List Span → Prop} {span span' : Span}
    (edited : Edited change span span') : span' = span.withChildren span'.children := by
  cases edited <;> rfl

/-- An edit does not show in what is told from the fields of a span. -/
theorem Edited.congr {α : Type} (tell : Span → α)
    (own : ∀ span children, tell (span.withChildren children) = tell span)
    {change : Span → List Span → Prop} {span span' : Span} (edited : Edited change span span') :
    tell span' = tell span := by
  rw [edited.eq_withChildren, own]

theorem Edited.branchStep_eq {change : Span → List Span → Prop} {span span' : Span}
    (edited : Edited change span span') (order : span'.order = span.order) (steps : List Step) :
    span'.branchStep steps = span.branchStep steps := by
  have info : Converter.infoFor span' {} = Converter.infoFor span {} :=
    edited.congr (fun span => Converter.infoFor span {}) fun _ _ => rfl
  unfold branchStep
  rw [order, info]

theorem isParallel_replace {change : Span → List Span → Prop} {child child' : Span}
    (edited : Edited change child child') (before after : List Span) :
    isParallel (before ++ child' :: after) = isParallel (before ++ child :: after) := by
  have branch : child'.isBranch = child.isBranch := edited.congr isBranch fun _ _ => rfl
  simp only [isParallel, List.length_append, List.length_cons, List.any_append, List.any_cons,
    branch]

end Span

/-! ## Local converters -/

/-- A converter that maps the fields of a span to steps, as a converter is meant to. The spans
inside are left to the walk. -/
def Convert.Local (convert : Convert) : Prop :=
  ∀ (span : Span) (children : List Span) (context : Context),
    convert (span.withChildren children) context = convert span context

namespace Registry

def Local (registry : Registry) : Prop :=
  registry.All Convert.Local

theorem Local.register {registry : Registry} (locals : registry.Local) (stepType : String)
    {convert : Convert} (added : convert.Local) : (registry.register stepType convert).Local :=
  locals.insert stepType ⟨convert, false⟩ added

theorem Local.registerWithSidecar {registry : Registry} (locals : registry.Local)
    (stepType : String) {convert : Convert} (added : convert.Local) :
    (registry.registerWithSidecar stepType convert).Local :=
  locals.insert stepType ⟨convert, true⟩ added

theorem Local.setFallback {registry : Registry} (locals : registry.Local) {convert : Convert}
    (added : convert.Local) : (registry.setFallback convert).Local :=
  ⟨locals.converters, added⟩

theorem empty_local : empty.Local :=
  ⟨by simp [empty], fun _ _ _ => rfl⟩

private theorem builtinConverters_local : ∀ entry ∈ builtinConverters, entry.2.Local := by
  simp only [builtinConverters, List.forall_mem_cons, List.not_mem_nil, false_implies,
    implies_true, and_true]
  repeat' apply And.intro
  all_goals exact fun _ _ _ => rfl

private theorem builtinSidecarConverters_local :
    ∀ entry ∈ builtinSidecarConverters, entry.2.Local := by
  simp only [builtinSidecarConverters, List.forall_mem_cons, List.not_mem_nil, false_implies,
    implies_true, and_true]
  repeat' apply And.intro
  all_goals exact fun _ _ _ => rfl

theorem builtin_local : builtin.Local :=
  builtin_all (fun _ _ _ => rfl) builtinConverters_local builtinSidecarConverters_local

/-- A registry that is not local: the converter of groups lists the spans inside. -/
def listing : Registry :=
  empty.register "group" fun span context =>
    .ok [Converter.scriptStep span context .sh (joinTexts " " (span.children.map Span.spanId))]

end Registry

/-! ## The edited span by itself -/

namespace Span

variable {registry : Registry} {span : Span} {children : List Span}

/-- Only stages and branches may have the order id of a marker inside them. -/
theorem order_withChildren (noStage : span.stepType ≠ "stage")
    (noBranch : span.stepType ≠ "parallel") : (span.withChildren children).order = span.order := by
  simp [order, noStage, noBranch]

/-- A span with an order id of its own keeps it. -/
theorem order_withChildren_of_direct (direct : span.directOrder?.isSome) :
    (span.withChildren children).order = span.order := by
  obtain ⟨id, own⟩ := Option.isSome_iff_exists.mp direct
  simp only [order, withChildren_directOrder?, own]

private theorem order_withChildren_of_isProducer (producer : span.isProducer registry) :
    (span.withChildren children).order = span.order := by
  simp only [isProducer, Bool.and_eq_true] at producer
  apply order_withChildren
  · intro stage
    have dispatched : registry.dispatch "stage" = .stage := rfl
    simp [stage, dispatched] at producer
  · intro branch
    have dispatched : registry.dispatch "parallel" = .passthrough := rfl
    simp [branch, dispatched] at producer

theorem convertWith_withChildren {convert : Convert} (locals : convert.Local)
    (order : (span.withChildren children).order = span.order) (context : Context)
    (state : WalkState) :
    (span.withChildren children).convertWith convert context state =
      span.convertWith convert context state := by
  unfold convertWith
  rw [locals, order]
  rfl

private theorem convertLeaf_withChildren {converter : Converter} (locals : converter.convert.Local)
    (order : (span.withChildren children).order = span.order) (pending : List PendingTool)
    (context : Context) (state : WalkState) :
    (span.withChildren children).convertLeaf converter pending context state =
      span.convertLeaf converter pending context state := by
  unfold convertLeaf
  rw [convertWith_withChildren locals order, order]
  rfl

theorem forks_withChildren (parallel : isParallel children = isParallel span.children) :
    (span.withChildren children).forks registry = span.forks registry := by
  simp only [forks, withChildren_isStructural, withChildren_stepType, withChildren_children,
    parallel]

theorem stageStep_withChildren (order : (span.withChildren children).order = span.order)
    (context : Context) (branches : List OrderedStep) :
    (span.withChildren children).stageStep context branches =
      span.stageStep context branches := by
  simp only [stageStep, withChildren_infoFor, order]

/-- What a span contributes by itself does not depend on its children, except that a wrapper of a
tool hears what is declared below it. -/
theorem contribute_withChildren (locals : registry.Local)
    (heard : span.wrapperTool? registry ≠ none →
      ∀ state, (span.withChildren children).declareBelow state = span.declareBelow state)
    (pending : List PendingTool) (context : Context) (state : WalkState) :
    (span.withChildren children).contribute registry pending context state =
      span.contribute registry pending context state := by
  unfold contribute
  rw [withChildren_isStructural, withChildren_stepType, withChildren_wrapperTool?,
    withChildren_inspect]
  cases structural : span.isStructural with
  | true => rfl
  | false =>
      -- Only producers contribute steps, and they know their order ids by themselves.
      have producer (produces : span.isProducer registry) :
          (span.withChildren children).order = span.order :=
        order_withChildren_of_isProducer produces
      simp only [isProducer, structural] at producer
      cases dispatched : registry.dispatch span.stepType
      all_goals simp only [dispatched, Bool.false_eq_true, if_false] at producer ⊢
      case background =>
        rw [producer rfl]
        rfl
      case checkout converter =>
        have registered := Registry.get?_of_dispatch (.inl dispatched)
        rw [convertLeaf_withChildren (locals.of_get? registered) (producer rfl)]
        rfl
      case convert converter =>
        have registered := Registry.get?_of_dispatch (.inr dispatched)
        exact convertLeaf_withChildren (locals.of_get? registered) (producer rfl) _ _ _
      case unknown =>
        exact convertWith_withChildren locals.fallback (producer rfl) _ _
      all_goals
        cases wraps : span.wrapperTool? registry with
        | none => rfl
        | some tool => simp only [heard (by simp [wraps])]

end Span

end TracePipeline
