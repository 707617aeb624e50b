import TracePipeline.Proofs.MergePass

/-! Where a conversion clones from. The clone settings of the stage and the repository of the
pipeline are handed up through every level of the walk by themselves, and still they always tell of
one span: the first checkout that the walk reaches and that names a repository. -/

set_option autoImplicit false

namespace TracePipeline

/-- A checkout, by its type. A span without attributes only groups its children, whatever its type
is. -/
def Span.isCheckout (span : Span) : Bool :=
  !span.isStructural && (span.stepType = "checkout" || span.stepType = "git")

def Visit.tellsRepository (visit : Visit) : Bool :=
  visit.span.isCheckout && visit.span.repository?.isSome

namespace Contribution

/-- What visits tell apart from their steps: the settings and the repository of the first one that
tells a repository. -/
def ofCheckouts (visits : List Visit) : Contribution :=
  let source := visits.find? Visit.tellsRepository
  { clone := source.map (·.span.cloneSettings)
    repository := source.bind (·.span.repository?) }

/-- The first of two parts that tells anything leaves neither slot to the second one. -/
theorem ofCheckouts_append (first second : List Visit) :
    ofCheckouts (first ++ second) = ofCheckouts first ++ ofCheckouts second := by
  unfold ofCheckouts
  rw [List.find?_append]
  cases found : first.find? Visit.tellsRepository with
  | none => rfl
  | some visit =>
      have tells := List.find?_some found
      simp only [Visit.tellsRepository, Bool.and_eq_true] at tells
      obtain ⟨repository, named⟩ := Option.isSome_iff_exists.mp tells.2
      simp only [Option.some_or, Option.map_some, Option.bind_some, named]
      rfl

end Contribution

/-! ## One visit -/

namespace Registry

theorem builtin_dispatch_checkout {stepType : String}
    (clones : stepType = "checkout" ∨ stepType = "git") :
    builtin.dispatch stepType = .checkout ⟨Converter.checkout, false⟩ := by
  rcases clones with rfl | rfl
  · rfl
  · rfl

private theorem eq_of_dispatch_checkout {registry : Registry} {stepType : String}
    {converter : Converter} (dispatched : registry.dispatch stepType = .checkout converter) :
    stepType = "checkout" ∨ stepType = "git" := by
  have registered := get?_of_dispatch (.inl dispatched)
  unfold dispatch at dispatched
  split at dispatched
  · cases dispatched
  cases own : structuralTypes.lookup stepType with
  | some handling =>
      have listed := Entries.mem_of_get? own
      rw [own] at dispatched
      simp only at dispatched
      rw [dispatched] at listed
      simp [structuralTypes] at listed
  | none =>
      rw [own] at dispatched
      by_contra other
      simp [registered, not_or.mp other] at dispatched

end Registry

namespace Visit

variable (options : Options) (ledger : Ledger) (visit : Visit)

theorem isCheckout_builtin : visit.isCheckout .builtin = visit.span.isCheckout := by
  unfold isCheckout Span.isCheckout
  by_cases clones : visit.span.stepType = "checkout" ∨ visit.span.stepType = "git"
  · simp [Registry.builtin_dispatch_checkout clones, clones]
  · have other (converter : Converter) :
        Registry.builtin.dispatch visit.span.stepType ≠ .checkout converter :=
      fun dispatched => clones (Registry.eq_of_dispatch_checkout dispatched)
    rw [not_or] at clones
    cases dispatched : Registry.builtin.dispatch visit.span.stepType with
    | checkout converter => exact absurd dispatched (other converter)
    | _ => simp [clones]

/-- A checkout has a step just if it names a repository. -/
theorem steps_eq_nil_iff_of_isCheckout (checkout : visit.span.isCheckout) :
    visit.steps .builtin options ledger = [] ↔ visit.span.repository? = none := by
  simp only [Span.isCheckout, Bool.and_eq_true, Bool.not_eq_true', Bool.or_eq_true,
    decide_eq_true_eq] at checkout
  have dispatched := Registry.builtin_dispatch_checkout checkout.2
  have noChoice : visit.choice? .builtin ledger.taken = none :=
    no_choice_of_dispatch Registry.builtin_convertsShells (by simp [dispatched])
  simp only [steps, checkout.1, dispatched, convertedSteps, noChoice, Span.answered,
    Converter.checkout, Converter.required]
  cases visit.span.repository? with
  | none => exact iff_of_true rfl rfl
  | some repository => exact iff_of_false (List.cons_ne_nil _ _) (Option.some_ne_none _)

private theorem withoutSteps_contribution :
    (visit.contribution .builtin options ledger).withoutSteps =
      Contribution.ofCheckouts [visit] := by
  rw [contribution, isCheckout_builtin, Contribution.ofCheckouts, List.find?_singleton,
    tellsRepository]
  cases checkout : visit.span.isCheckout with
  | false => rfl
  | true =>
      have steps := visit.steps_eq_nil_iff_of_isCheckout options ledger checkout
      cases named : visit.span.repository? with
      | none =>
          rw [steps.mpr named]
          rfl
      | some repository =>
          obtain ⟨first, rest, shape⟩ := List.exists_cons_of_ne_nil
            (mt steps.mp (by simp [named]))
          simp only [shape, Span.withCheckout, named]
          simp [named]
          rfl

end Visit

/-! ## Outlines -/

namespace Outline

def visitsAmong (outlines : List Outline) : List Visit :=
  (stopsOf outlines).map Stop.visit

theorem visitsAmong_cons (outline : Outline) (rest : List Outline) :
    visitsAmong (outline :: rest) = outline.stops.map Stop.visit ++ visitsAmong rest :=
  List.map_append

section Lists

variable {options : Options} {merge : Bool} {outlines : List Outline}

private theorem withoutSteps_assembleAll
    (each : ∀ outline ∈ outlines, (outline.assemble .builtin options merge).withoutSteps =
      .ofCheckouts (outline.stops.map Stop.visit)) :
    (assembleAll .builtin options merge outlines).withoutSteps =
      .ofCheckouts (visitsAmong outlines) := by
  induction outlines with
  | nil => rfl
  | cons outline rest ih =>
      rw [assembleAll, Contribution.withoutSteps_append, each outline (.head _),
        ih fun outline member => each outline (.tail _ member), visitsAmong_cons,
        Contribution.ofCheckouts_append]

private theorem assembleBranches_snd
    (each : ∀ outline ∈ outlines, (outline.assemble .builtin options merge).withoutSteps =
      .ofCheckouts (outline.stops.map Stop.visit)) :
    (assembleBranches .builtin options merge outlines).2 =
      .ofCheckouts (visitsAmong outlines) := by
  induction outlines with
  | nil => rfl
  | cons outline rest ih =>
      rw [assembleBranches, each outline (.head _),
        ih fun outline member => each outline (.tail _ member), visitsAmong_cons,
        Contribution.ofCheckouts_append]

end Lists

/-- The two slots of an outline tell of its first source, whatever becomes of the steps. -/
theorem withoutSteps_assemble (options : Options) (merge : Bool) (outline : Outline) :
    (outline.assemble .builtin options merge).withoutSteps =
      .ofCheckouts (outline.stops.map Stop.visit) := by
  induction outline using induct_inside with
  | step stop inside ih =>
      have inner : (if stop.visit.span.forks .builtin then
          (assembleBranches .builtin options merge inside).2 ++
            stop.visit.span.stageStep (stop.visit.context .builtin options)
              (assembleBranches .builtin options merge inside).1
          else assembleAll .builtin options merge inside).withoutSteps =
            .ofCheckouts (visitsAmong inside) := by
        split
        · rw [Contribution.withoutSteps_append, Contribution.withoutSteps_stageStep,
            Contribution.append_empty, assembleBranches_snd ih]
          rfl
        · exact withoutSteps_assembleAll ih
      rw [assemble, Contribution.withoutSteps_append, Visit.withoutSteps_contribution, inner,
        ← Contribution.ofCheckouts_append]
      rfl

end Outline

/-! ## Documents -/

namespace Conversion

/-- The clone settings and the repository are those of the first reached checkout in walk order
that names a repository, and absent if there is none. -/
theorem ofSpan_clones_first_source (options : Options) (root : Span) :
    let visits := root.visits .builtin [] []
    let source := visits.find? Visit.tellsRepository
    let pipeline := (ofSpan .builtin options root).pipeline
    (∀ visit, visit ∈ visits ↔ Reached .builtin (.root root) visit) ∧
      (visits.map Visit.span).Sublist (root :: root.descendants) ∧
      pipeline.stages.map Stage.clone = [source.map (·.span.cloneSettings)] ∧
      pipeline.repository = source.bind (·.span.repository?) := by
  have told := Outline.withoutSteps_assemble options options.mergeSteps (root.rootOutline .builtin)
  have visited : (root.rootOutline .builtin).stops.map Stop.visit = root.visits .builtin [] [] := by
    rw [Span.stops_rootOutline]
    exact map_visit_tour _ _ _
  rw [visited] at told
  have assembled : (ofSpan .builtin options root).pipeline = assemble options root
      ((root.rootOutline .builtin).assemble .builtin options options.mergeSteps) :=
    pipeline_eq Registry.builtin_convertsShells options options.mergeSteps root
  intro visits source pipeline
  refine ⟨fun visit => Span.mem_visits_iff, root.visits_spans_sublist .builtin [] [], ?_, ?_⟩
  · have clone := congrArg Contribution.clone told
    rw [show pipeline = _ from assembled]
    exact congrArg ([·]) clone
  · have repository := congrArg Contribution.repository told
    rw [show pipeline = _ from assembled]
    exact repository

end Conversion

end TracePipeline
