import TracePipeline.Log
import TracePipeline.Proofs.Findings

/-! What the log of a conversion holds. Each finding has one record, in the order of the
diagnostics; the only other warnings are about container wrappers without an image. -/

set_option autoImplicit false

namespace TracePipeline

namespace LogRecord

/-- A record of a finding tells the code of its diagnostic. -/
def isFinding (record : LogRecord) : Bool :=
  record.fields.any fun field => field.1 = "code"

/-- A record that is neither about a finding nor at the level of warnings. -/
def Quiet (record : LogRecord) : Prop :=
  record.isFinding = false ∧ record.level ≠ .warn

def imageless (span : Span) : LogRecord :=
  .ofSpan .warn "withDockerContainer without an image" span

/-- Records that tell some findings, one record for each and in their order. -/
structure Tell (records : List LogRecord) (found : List Diagnostic) : Prop where
  findings : records.filter isFinding = found.map ofDiagnostic
  others : ∀ record ∈ records, record.level = .warn → record.isFinding ∨
    ∃ span, record = imageless span

namespace Tell

variable {records records' : List LogRecord} {found found' : List Diagnostic}

theorem append (tell : Tell records found) (tell' : Tell records' found') :
    Tell (records ++ records') (found ++ found') where
  findings := by rw [List.filter_append, tell.findings, tell'.findings, List.map_append]
  others := by
    intro record member
    rcases List.mem_append.mp member with first | second
    · exact tell.others record first
    · exact tell'.others record second

theorem of_quiet (quiet : ∀ record ∈ records, record.Quiet) : Tell records [] where
  findings := by
    rw [List.map_nil, List.filter_eq_nil_iff]
    intro record member finding
    cases (quiet record member).1.symm.trans finding
  others := fun record member warns => absurd warns (quiet record member).2

private theorem of_imageless (span : Span) : Tell [imageless span] [] where
  findings := rfl
  others := by
    intro record member _
    exact .inr ⟨span, List.mem_singleton.mp member⟩

private theorem of_found (found : List Diagnostic) : Tell (found.map ofDiagnostic) found where
  findings := by
    rw [List.filter_eq_self]
    intro record member
    obtain ⟨diagnostic, -, rfl⟩ := List.mem_map.mp member
    rfl
  others := by
    intro record member _
    obtain ⟨diagnostic, -, rfl⟩ := List.mem_map.mp member
    exact .inl rfl

end Tell

end LogRecord

namespace WalkState

/-- The records tell what has been found on the way from one state to another. -/
def Logged (before after : WalkState) (records : List LogRecord) : Prop :=
  ∃ found, after.diagnostics = before.diagnostics ++ found ∧ LogRecord.Tell records found

namespace Logged

variable {before between after : WalkState} {records records' : List LogRecord}

theorem trans (logged : Logged before between records) (logged' : Logged between after records') :
    Logged before after (records ++ records') := by
  obtain ⟨found, grown, tell⟩ := logged
  obtain ⟨found', grown', tell'⟩ := logged'
  exact ⟨found ++ found', by rw [grown', grown, List.append_assoc], tell.append tell'⟩

private theorem refl (state : WalkState) : Logged state state [] :=
  ⟨[], (List.append_nil _).symm, .of_quiet nofun⟩

/-- Nothing is found. -/
theorem of_tell (same : after.diagnostics = before.diagnostics)
    (tell : LogRecord.Tell records []) : Logged before after records :=
  ⟨[], by rw [same, List.append_nil], tell⟩

theorem since {found : List Diagnostic} (grown : after.diagnostics = before.diagnostics ++ found) :
    Logged before after (before.recordsSince after) := by
  refine ⟨found, grown, ?_⟩
  rw [recordsSince, grown, List.drop_left]
  exact .of_found found

end Logged

end WalkState

namespace Span

open LogRecord WalkState

/-! ## Single spans -/

theorem quiet_ofTool (message : String) (tool : Tool) (span : Span) :
    (LogRecord.ofTool message tool span).Quiet :=
  ⟨rfl, nofun⟩

theorem tell_declarationRecords (span : Span) : Tell span.declarationRecords [] := by
  apply Tell.of_quiet
  intro record member
  rcases List.mem_append.mp member with sidecar | own
  · obtain ⟨declared, -, rfl⟩ := List.mem_map.mp sidecar
    exact quiet_ofTool _ _ _
  · split at own
    · obtain ⟨declared, -, rfl⟩ := List.mem_map.mp own
      exact quiet_ofTool _ _ _
    · cases own

private theorem logged_inspect (span : Span) (state : WalkState) :
    Logged state (span.inspect state) (span.inspectRecords state) := by
  have own : Logged state (span.inspect state) (state.recordsSince (span.inspect state)) :=
    .since (span.diagnostics_inspect state)
  exact own.trans (.of_tell rfl span.tell_declarationRecords)

private theorem tell_scopeRecords (span : Span) (scope : Scope) :
    Tell (span.scopeRecords scope) [] := by
  cases scope with
  | env =>
      apply Tell.of_quiet
      intro record member
      obtain ⟨entry, -, rfl⟩ := List.mem_map.mp member
      exact ⟨rfl, nofun⟩
  | dockerContainer =>
      simp only [scopeRecords]
      split
      · exact .of_imageless span
      · exact .of_quiet nofun
  | credentials => exact .of_quiet nofun
  | dockerRegistry => exact .of_quiet nofun
  | timeout => exact .of_quiet nofun

private theorem tell_stageRecords (span : Span) (branches : List OrderedStep) :
    Tell (span.stageRecords branches) [] := by
  unfold stageRecords
  split
  · exact .of_quiet nofun
  · apply Tell.of_quiet
    intro record member
    rw [List.mem_singleton.mp member]
    exact ⟨rfl, nofun⟩

private theorem tell_wrapperRecords (span : Span) (tool : Tool) (state : WalkState) :
    Tell (span.wrapperRecords tool state) [] := by
  have below : Tell ((Traversal.below span).toList.flatMap declarationRecords) [] := by
    induction (Traversal.below span).toList with
    | nil => exact .of_quiet nofun
    | cons first rest ih =>
        rw [List.flatMap_cons]
        exact first.tell_declarationRecords.append ih
  refine below.append ?_
  split
  · apply Tell.of_quiet
    intro record member
    rw [List.mem_singleton.mp member]
    exact quiet_ofTool _ _ _
  · exact .of_quiet nofun

private theorem tell_wrappedRecords (span : Span) (tool : Tool) (before after : WalkState) :
    Tell (span.wrappedRecords tool before after) [] := by
  unfold wrappedRecords
  split
  · exact .of_quiet nofun
  · apply Tell.of_quiet
    intro record member
    rw [List.mem_singleton.mp member]
    exact quiet_ofTool _ _ _

/-- What the conversion of one span finds comes behind all that was found before. -/
theorem exists_diagnostics_convertLeaf (converter : Converter) (pending : List PendingTool)
    (context : Context) (span : Span) (state : WalkState) :
    ∃ found, (span.convertLeaf converter pending context state).2.diagnostics =
      state.diagnostics ++ found := by
  unfold convertLeaf
  split
  · exact ⟨_, diagnostics_warn _ _ _ _⟩
  · split
    · exact ⟨[], by rw [List.append_nil]; exact diagnostics_take _ _⟩
    · exact ⟨_, diagnostics_convertWith _ _ _ _⟩

private theorem logged_convertLeaf (converter : Converter) (pending : List PendingTool)
    (context : Context) (span : Span) (state : WalkState) :
    Logged state (span.convertLeaf converter pending context state).2
      (span.leafRecords converter pending context state) := by
  obtain ⟨found, grown⟩ := exists_diagnostics_convertLeaf converter pending context span state
  refine Logged.trans (.of_tell rfl (.of_quiet ?_)) (.since grown)
  intro record member
  obtain ⟨taken, -, rfl⟩ := List.mem_map.mp member
  exact quiet_ofTool _ _ _

private theorem logged_convertUnknown (fallback : Convert) (span : Span) (context : Context)
    (state : WalkState) :
    Logged state (span.convertUnknown fallback context state).2
      (state.recordsSince (span.convertUnknown fallback context state).2) := by
  have grown := diagnostics_convertWith span context
    (state.warn "W003"
      ("Unsupported step type '" ++ span.stepType ++ "' converted to a placeholder") span) fallback
  rw [diagnostics_warn, List.append_assoc] at grown
  exact .since grown

/-! ## Walks -/

section

variable {rules : WalkRules} {spans : List Span}

/-- Wherever a span is, the records of its walk tell what the walk finds. -/
def WalkLogged (rules : WalkRules) (span : Span) : Prop :=
  ∀ (pending : List PendingTool) (context : Context) (state : WalkState),
    Logged state (span.walk rules pending context state).2
      (span.records rules pending context state)

theorem logged_walkAll (each : ∀ span ∈ spans, span.WalkLogged rules)
    (pending : List PendingTool) (context : Context) (state : WalkState) :
    Logged state (walkAll rules pending context spans state).2
      (recordsAll rules pending context spans state) := by
  induction spans generalizing state with
  | nil => exact .refl state
  | cons first rest ih =>
      have others := ih (fun span member => each span (.tail _ member))
        (first.walk rules pending context state).2
      exact (each first (.head _) pending context state).trans others

/-- The branches of a stage are walked in a row too. -/
theorem walkBranches_state (rules : WalkRules) (pending : List PendingTool) (context : Context)
    (spans : List Span) (state : WalkState) :
    (walkBranches rules pending context spans state).2.2 =
      (walkAll rules pending context spans state).2 := by
  induction spans generalizing state with
  | nil => rfl
  | cons first rest ih => exact ih _

/-- The wrapper of a tool tells more before and after its children, but finds nothing. -/
theorem logged_wrapper (inside : ∀ child ∈ spans, child.WalkLogged rules) (span : Span)
    (tool : Tool) (pending : List PendingTool) (context : Context) (state : WalkState) :
    let below := span.declareBelow state
    let within := span.pendingInside tool pending below
    Logged state (walkAll rules within context spans below).2
      (span.wrapperRecords tool below ++ (recordsAll rules within context spans below ++
        span.wrappedRecords tool below (walkAll rules within context spans below).2)) := by
  intro below within
  have opened : Logged state below (span.wrapperRecords tool below) :=
    .of_tell (diagnostics_declareBelow span state) (span.tell_wrapperRecords tool below)
  have walked := logged_walkAll inside within context below
  exact opened.trans (walked.trans (.of_tell rfl (span.tell_wrappedRecords tool below _)))

end

theorem walkLogged (rules : WalkRules) (span : Span) : span.WalkLogged rules := by
  induction span using induct_children with
  | step span inside =>
      intro pending context state
      have onward := logged_walkAll inside
      have inspected := span.logged_inspect state
      have entered (scope : Scope) :
          Logged (span.inspect state) (span.inspect state) (span.scopeRecords scope) :=
        .of_tell rfl (span.tell_scopeRecords scope)
      have staged (branches : List OrderedStep) (after : WalkState) :
          Logged after after (span.stageRecords branches) :=
        .of_tell rfl (span.tell_stageRecords branches)
      have wrapped (tool : Tool) :=
        logged_wrapper inside span tool pending context (span.inspect state)
      have converted (converter : Converter) :=
        logged_convertLeaf converter pending context span (span.inspect state)
      have replaced :=
        logged_convertUnknown rules.registry.fallback span context (span.inspect state)
      cases structural : span.isStructural with
      | true =>
          cases span
          simp only [walk, records, structural, if_true]
          exact onward pending context state
      | false =>
          cases dispatched : rules.registry.dispatch span.stepType
          case stage =>
            have walked := inspected.trans (onward pending context _)
            cases parallel : isParallel span.children
            all_goals
              cases span
              simp only [walk, records, structural, dispatched, parallel, Bool.false_eq_true,
                if_false, if_true, List.append_nil]
            case false.mk => exact walked
            case true.mk =>
              rw [walkBranches_state, ← List.append_assoc]
              exact walked.trans (staged _ _)
          case wrap =>
            cases named : span.wrappedTool?
            all_goals
              cases span
              simp only [walk, records, structural, dispatched, named, Bool.false_eq_true,
                if_false]
            case none.mk => exact inspected.trans (onward pending context _)
            case some.mk => exact inspected.trans (wrapped _)
          all_goals
            cases span
            simp only [walk, records, structural, dispatched, Bool.false_eq_true, if_false]
          case passthrough.mk | toolDeclaration.mk | background.mk =>
            exact inspected.trans (onward pending context _)
          case scope.mk => exact inspected.trans ((entered _).trans (onward pending _ _))
          case toolWrapper.mk => exact inspected.trans (wrapped _)
          case checkout.mk | convert.mk => exact inspected.trans (converted _)
          case unknown.mk => exact inspected.trans (replaced.trans (onward pending context _))

end Span

namespace Conversion

/-- The log tells each finding of a conversion, in the order of the diagnostics. -/
theorem tell_records (registry : Registry) (options : Options) (root : Span) :
    LogRecord.Tell (records registry options root) (ofSpan registry options root).diagnostics := by
  obtain ⟨found, grown, tell⟩ := Span.walkLogged ⟨registry, options.mergeSteps⟩ root []
    (.root options) {}
  have whole : (ofSpan registry options root).diagnostics = found := grown
  have summary : LogRecord.Tell [⟨.info, "lowered span tree",
      [("steps", .count (ofSpan registry options root).pipeline.steps.length),
        ("diagnostics", .count (ofSpan registry options root).diagnostics.length)]⟩] [] := by
    apply LogRecord.Tell.of_quiet
    intro record member
    rw [List.mem_singleton.mp member]
    exact ⟨rfl, nofun⟩
  rw [whole, ← List.append_nil found]
  exact tell.append summary

theorem ofTextLogged_eq_ok_iff {registry : Registry} {options : Options} {text : String}
    {conversion : Conversion} {told : List LogRecord} :
    ofTextLogged registry options text = .ok (conversion, told) ↔
      ofText registry options text = .ok conversion ∧
        ∃ root, Span.ofText text = .ok root ∧
          told = records registry options root := by
  unfold ofTextLogged ofText
  cases Span.ofText text with
  | error failure => exact ⟨nofun, fun both => nomatch both.1⟩
  | ok root =>
      constructor
      · intro made
        cases made
        exact ⟨rfl, root, rfl, rfl⟩
      · intro holds
        obtain ⟨made, _, ⟨⟩, rfl⟩ := holds
        cases made
        rfl

end Conversion

end TracePipeline
