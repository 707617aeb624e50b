import TracePipeline.Conversion
import TracePipeline.Proofs.WalkStep

/-! A walk in two parts. The outline of a trace holds the stops of the walk in the shape of the
trace; it does not depend on the options. Assembling an outline brings the contributions into
order, level by level, and keeps nothing. A walk is the one after the other. -/

set_option autoImplicit false

namespace TracePipeline

/-! ## Outlines -/

/-- A stop and the stops inside it. -/
inductive Outline where
  | node (stop : Stop) (inside : List Outline)

namespace Outline

def stop : Outline → Stop
  | .node stop _ => stop

def span (outline : Outline) : Span :=
  outline.stop.visit.span

mutual

/-- The stops of an outline in walk order. -/
def stops : Outline → List Stop
  | .node stop inside => stop :: stopsOf inside

def stopsOf : List Outline → List Stop
  | [] => []
  | outline :: rest => stops outline ++ stopsOf rest

end

variable (registry : Registry) (options : Options) (merge : Bool)

mutual

/-- What an outline contributes when its steps are brought into order. -/
def assemble : Outline → Contribution
  | .node stop inside =>
    stop.visit.contribution registry options stop.ledger ++
      if stop.visit.span.forks registry then
        (assembleBranches inside).2 ++
          stop.visit.span.stageStep (stop.visit.context registry options)
            (assembleBranches inside).1
      else assembleAll inside

def assembleAll : List Outline → Contribution
  | [] => {}
  | outline :: rest => assemble outline ++ assembleAll rest

def assembleBranches : List Outline → List OrderedStep × Contribution
  | [] => ([], {})
  | outline :: rest =>
    (outline.span.branchStep (finalize merge (assemble outline).entries) ++
        (assembleBranches rest).1,
      (assemble outline).withoutSteps ++ (assembleBranches rest).2)

end

end Outline

/-! ## Entries of outlines -/

@[simp] theorem Contribution.append_entries (first second : Contribution) :
    (first ++ second).entries = first.entries ++ second.entries := rfl

@[simp] theorem Contribution.withoutSteps_entries (contribution : Contribution) :
    contribution.withoutSteps.entries = [] := rfl

theorem Span.withCheckout_entries (span : Span) (contribution : Contribution) :
    (span.withCheckout contribution).entries = contribution.entries := by
  unfold Span.withCheckout
  split
  · rfl
  · exact List.append_nil _

namespace Stop

/-- The entries of a stop: its steps with the order id of its span. -/
def entries (registry : Registry) (options : Options) (stop : Stop) : List OrderedStep :=
  (stop.steps registry options).map fun step => ⟨stop.visit.span.order, step⟩

@[simp] theorem map_step_entries (registry : Registry) (options : Options) (stop : Stop) :
    (stop.entries registry options).map OrderedStep.step = stop.steps registry options := by
  simp [entries, Function.comp_def]

private theorem contribution_entries (registry : Registry) (options : Options) (stop : Stop) :
    (stop.visit.contribution registry options stop.ledger).entries =
      stop.entries registry options := by
  simp only [Visit.contribution]
  split
  · exact Span.withCheckout_entries _ _
  · rfl

theorem entries_eq_nil_iff {registry : Registry} {options : Options} {stop : Stop} :
    stop.entries registry options = [] ↔ stop.steps registry options = [] :=
  List.map_eq_nil_iff

end Stop

namespace Outline

/-- A property of all outlines follows from the stops inside to the one around them. -/
theorem induct_inside {motive : Outline → Prop}
    (step : ∀ stop inside, (∀ outline ∈ inside, motive outline) → motive (.node stop inside))
    (outline : Outline) : motive outline := by
  refine @Outline.rec motive (fun outlines => ∀ outline ∈ outlines, motive outline) ?_ ?_ ?_
    outline
  · exact step
  · intro outline member
    cases member
  · intro first rest firstHolds restHolds outline member
    rcases List.mem_cons.mp member with rfl | later
    · exact firstHolds
    · exact restHolds outline later

theorem stopsOf_eq_flatMap (outlines : List Outline) :
    stopsOf outlines = outlines.flatMap stops := by
  induction outlines with
  | nil => rfl
  | cons outline rest ih => simp [stopsOf, ih]

variable (registry : Registry) (options : Options) (merge : Bool)

def entries (outline : Outline) : List OrderedStep :=
  (outline.assemble registry options merge).entries

/-- The entry of an outline as a branch, if there is anything in it. -/
def branch (outline : Outline) : List OrderedStep :=
  outline.span.branchStep (finalize merge (outline.entries registry options merge))

private theorem assembleAll_entries (outlines : List Outline) :
    (assembleAll registry options merge outlines).entries =
      outlines.flatMap (entries registry options merge) := by
  induction outlines with
  | nil => rfl
  | cons outline rest ih =>
      rw [assembleAll, Contribution.append_entries, ih, List.flatMap_cons]
      rfl

private theorem assembleBranches_fst (outlines : List Outline) :
    (assembleBranches registry options merge outlines).1 =
      outlines.flatMap (branch registry options merge) := by
  induction outlines with
  | nil => rfl
  | cons outline rest ih =>
      rw [assembleBranches, ih, List.flatMap_cons]
      rfl

private theorem assembleBranches_snd_entries (outlines : List Outline) :
    (assembleBranches registry options merge outlines).2.entries = [] := by
  induction outlines with
  | nil => rfl
  | cons outline rest ih => simp [assembleBranches, ih]

/-- The entries of an outline are its own, then either the one of its branches or all those
inside. -/
theorem entries_node (stop : Stop) (inside : List Outline) :
    (node stop inside).entries registry options merge =
      stop.entries registry options ++
        if stop.visit.span.forks registry then
          (stop.visit.span.stageStep (stop.visit.context registry options)
            (inside.flatMap (branch registry options merge))).entries
        else inside.flatMap (entries registry options merge) := by
  rw [entries, assemble, Contribution.append_entries, Stop.contribution_entries]
  split
  · rw [Contribution.append_entries, assembleBranches_snd_entries, assembleBranches_fst,
      List.nil_append]
  · rw [assembleAll_entries]

end Outline

namespace Span

mutual

/-- The outline of a span and the ledger once the walk has left it. -/
def outline (registry : Registry) (ledger : Ledger) (path : List Nat) (around : List Span)
    (span : Span) : Outline × Ledger :=
  match span with
  | span@{ children, .. } =>
    let visit : Visit := ⟨path, span, around⟩
    let after := ledger.after registry visit
    if span.descends registry then
      let (inside, last) := outlines registry after path (span :: around) 0 children
      (.node ⟨visit, ledger⟩ inside, last)
    else (.node ⟨visit, ledger⟩ [], after)
termination_by structural span

/-- The outlines of children and the ledger once the walk has left the last one. The first child
has the number `index`. -/
def outlines (registry : Registry) (ledger : Ledger) (path : List Nat) (around : List Span)
    (index : Nat) (spans : List Span) : List Outline × Ledger :=
  match spans with
  | [] => ([], ledger)
  | span :: rest =>
    let (first, ledger) := outline registry ledger (index :: path) around span
    let (others, ledger) := outlines registry ledger path around (index + 1) rest
    (first :: others, ledger)
termination_by structural spans

end

theorem outline_eq (registry : Registry) (ledger : Ledger) (path : List Nat) (around : List Span)
    (span : Span) :
    span.outline registry ledger path around =
      if span.descends registry then
        let inside := outlines registry (ledger.after registry ⟨path, span, around⟩) path
          (span :: around) 0 span.children
        (.node ⟨⟨path, span, around⟩, ledger⟩ inside.1, inside.2)
      else
        (.node ⟨⟨path, span, around⟩, ledger⟩ [], ledger.after registry ⟨path, span, around⟩) := by
  cases span
  rw [outline]

@[simp] theorem outline_span (registry : Registry) (ledger : Ledger) (path : List Nat)
    (around : List Span) (span : Span) :
    (span.outline registry ledger path around).1.span = span := by
  rw [outline_eq]
  split <;> rfl

/-! ## Outlines and tours -/

/-- The stops of an outline are those of a tour over the visits. -/
theorem outlines_eq_tour {registry : Registry} {path : List Nat} {around : List Span}
    (spans : List Span)
    (each : ∀ span ∈ spans, ∀ ledger path around,
      (span.outline registry ledger path around).1.stops =
          tour registry ledger (span.visits registry path around) ∧
        (span.outline registry ledger path around).2 =
          (span.visits registry path around).foldl (Ledger.after registry) ledger)
    (ledger : Ledger) (index : Nat) :
    Outline.stopsOf (outlines registry ledger path around index spans).1 =
        tour registry ledger (visitsFrom registry path around index spans) ∧
      (outlines registry ledger path around index spans).2 =
        (visitsFrom registry path around index spans).foldl (Ledger.after registry) ledger := by
  induction spans generalizing ledger index with
  | nil => exact ⟨rfl, rfl⟩
  | cons first rest ih =>
      obtain ⟨stops, last⟩ := each first (.head _) ledger (index :: path) around
      obtain ⟨others, final⟩ := ih (fun span member => each span (.tail _ member))
        (first.outline registry ledger (index :: path) around).2 (index + 1)
      rw [outlines, visitsFrom, List.foldl_append, tour_append, Outline.stopsOf, ← last, ← stops]
      exact ⟨congrArg _ others, final⟩

theorem outline_eq_tour (registry : Registry) (ledger : Ledger) (path : List Nat)
    (around : List Span) (span : Span) :
    (span.outline registry ledger path around).1.stops =
        tour registry ledger (span.visits registry path around) ∧
      (span.outline registry ledger path around).2 =
        (span.visits registry path around).foldl (Ledger.after registry) ledger := by
  induction span using induct_children generalizing ledger path around with
  | step span ih =>
      rw [outline_eq, visits_eq]
      by_cases onward : span.descends registry
      · simp only [if_pos onward, Outline.stops, tour, List.foldl_cons]
        obtain ⟨stops, last⟩ := outlines_eq_tour span.children
          (fun child member ledger path around => ih child member ledger path around)
          (ledger.after registry ⟨path, span, around⟩) 0
        rw [stops, last]
        exact ⟨rfl, rfl⟩
      · simp only [if_neg onward]
        exact ⟨rfl, rfl⟩

theorem taken_subset_outline (registry : Registry) (ledger : Ledger) (path : List Nat)
    (around : List Span) (span : Span) :
    ledger.taken ⊆ (span.outline registry ledger path around).2.taken := by
  rw [(outline_eq_tour registry ledger path around span).2]
  exact taken_subset_foldl registry ledger _

/-! ## Walking is outlining and assembling -/

/-- Wherever a span is, a walk of it is its outline assembled. -/
def WalksAsOutlined (rules : WalkRules) (options : Options) (span : Span) : Prop :=
  ∀ (pending : List PendingTool) (state : WalkState) (ledger : Ledger) (path : List Nat)
    (around : List Span),
    ledger.Kept state → SameFree ledger.taken pending (waitingWithin rules.registry around) →
      let outlined := span.outline rules.registry ledger path around
      let walked := span.walk rules pending (contextWithin rules.registry options around) state
      walked.1 = outlined.1.assemble rules.registry options rules.merge ∧ outlined.2.Kept walked.2

section Lists

variable {rules : WalkRules} {options : Options} {pending : List PendingTool} {state : WalkState}
  {ledger : Ledger} {around spans : List Span}

theorem walkAll_eq (each : ∀ span ∈ spans, span.WalksAsOutlined rules options)
    (kept : ledger.Kept state)
    (same : SameFree ledger.taken pending (waitingWithin rules.registry around))
    (path : List Nat) (index : Nat) :
    let outlined := outlines rules.registry ledger path around index spans
    let walked := walkAll rules pending (contextWithin rules.registry options around) spans state
    walked.1 = Outline.assembleAll rules.registry options rules.merge outlined.1 ∧
      outlined.2.Kept walked.2 := by
  induction spans generalizing ledger state index with
  | nil => exact ⟨rfl, kept⟩
  | cons first rest ih =>
      obtain ⟨own, after⟩ :=
        each first (.head _) pending state ledger (index :: path) around kept same
      obtain ⟨others, last⟩ := ih (fun span member => each span (.tail _ member)) after
        (same.mono (taken_subset_outline _ _ _ _ _)) (index + 1)
      simp only [walkAll, outlines, Outline.assembleAll]
      rw [own, others]
      exact ⟨rfl, last⟩

theorem walkBranches_eq (each : ∀ span ∈ spans, span.WalksAsOutlined rules options)
    (kept : ledger.Kept state)
    (same : SameFree ledger.taken pending (waitingWithin rules.registry around))
    (path : List Nat) (index : Nat) :
    let outlined := outlines rules.registry ledger path around index spans
    let walked :=
      walkBranches rules pending (contextWithin rules.registry options around) spans state
    (walked.1, walked.2.1) =
        Outline.assembleBranches rules.registry options rules.merge outlined.1 ∧
      outlined.2.Kept walked.2.2 := by
  induction spans generalizing ledger state index with
  | nil => exact ⟨rfl, kept⟩
  | cons first rest ih =>
      obtain ⟨own, after⟩ :=
        each first (.head _) pending state ledger (index :: path) around kept same
      obtain ⟨others, last⟩ := ih (fun span member => each span (.tail _ member)) after
        (same.mono (taken_subset_outline _ _ _ _ _)) (index + 1)
      simp only [walkBranches, outlines, Outline.assembleBranches]
      rw [own, ← others, outline_span]
      exact ⟨rfl, last⟩

end Lists

theorem walk_eq (rules : WalkRules) (options : Options) (shells : rules.registry.ConvertsShells)
    (span : Span) : span.WalksAsOutlined rules options := by
  induction span using induct_children with
  | step span ih =>
      intro pending state ledger path around kept same
      have visited : Visit.KeepsLedger rules.registry options ledger pending state
          ⟨path, span, around⟩ := Visit.keepsLedger options shells kept same
      obtain ⟨own, after⟩ := visited
      -- What the span takes by itself counts no more, so that the match with the wrappers lasts.
      have waits := (same.mono Visit.subset_take).within span after.isTaken
      rw [walk_eq_contribute, outline_eq]
      by_cases onward : span.descends rules.registry
      case neg =>
        have straight : ¬span.forks rules.registry := fun forks => onward (descends_of_forks forks)
        simp only [if_neg onward, Outline.assemble, if_neg straight, Outline.assembleAll,
          Contribution.append_empty]
        exact ⟨own, after⟩
      by_cases forks : span.forks rules.registry
      · obtain ⟨branches, last⟩ := walkBranches_eq ih after waits path 0
        simp only [if_pos onward, if_pos forks, Outline.assemble]
        refine ⟨?_, last⟩
        rw [← branches]
        exact congrArg (· ++ _) own
      · obtain ⟨inside, last⟩ := walkAll_eq ih after waits path 0
        simp only [if_pos onward, if_neg forks, Outline.assemble]
        refine ⟨?_, last⟩
        rw [← inside]
        exact congrArg (· ++ _) own

def rootOutline (registry : Registry) (root : Span) : Outline :=
  (root.outline registry {} [] []).1

end Span

/-! ## Conversions -/

def Span.stops (registry : Registry) (root : Span) : List Stop :=
  tour registry {} (root.visits registry [] [])

@[simp] theorem Span.stops_rootOutline (registry : Registry) (root : Span) :
    (root.rootOutline registry).stops = root.stops registry :=
  (root.outline_eq_tour registry {} [] []).1

namespace Conversion

theorem walk_root_eq {registry : Registry} (shells : registry.ConvertsShells) (options : Options)
    (merge : Bool) (root : Span) :
    (root.walk ⟨registry, merge⟩ [] (.root options) {}).1 =
      (root.rootOutline registry).assemble registry options merge :=
  (root.walk_eq ⟨registry, merge⟩ options shells [] {} {} [] [] .empty rfl).1

theorem kept_walk_root {registry : Registry} (shells : registry.ConvertsShells)
    (options : Options) (merge : Bool) (root : Span) :
    (root.outline registry {} [] []).2.Kept
      (root.walk ⟨registry, merge⟩ [] (.root options) {}).2 :=
  (root.walk_eq ⟨registry, merge⟩ options shells [] {} {} [] [] .empty rfl).2

/-- The pipeline of a conversion is made from the assembled outline. -/
theorem pipeline_eq {registry : Registry} (shells : registry.ConvertsShells) (options : Options)
    (merge : Bool) (root : Span) :
    (ofSpan registry { options with mergeSteps := merge } root).pipeline =
      assemble { options with mergeSteps := merge } root
        ((root.rootOutline registry).assemble registry options merge) := by
  rw [← walk_root_eq shells]
  rfl

theorem steps_eq {registry : Registry} (shells : registry.ConvertsShells) (options : Options)
    (merge : Bool) (root : Span) :
    (ofSpan registry { options with mergeSteps := merge } root).pipeline.steps =
      finalize merge ((root.rootOutline registry).entries registry options merge) := by
  rw [pipeline_eq shells]
  exact List.append_nil _

end Conversion

end TracePipeline
