import TracePipeline.Proofs.Entries
import TracePipeline.Proofs.StepTree

/-! What the converters of the library answer. Each of them either skips a span or makes one task
of it, under the id and name of the span; the context decides neither which nor how many. -/

set_option autoImplicit false

namespace TracePipeline

/-! ## Images of plugins -/

namespace Plugin

@[simp] theorem withSetting_image (plugin : Plugin) (key : String) (value : Json) :
    (plugin.withSetting key value).image = plugin.image := by
  unfold withSetting
  split <;> rfl

@[simp] theorem withSetting?_image (plugin : Plugin) (key : String) (value : Option Json) :
    (plugin.withSetting? key value).image = plugin.image := by
  cases value <;> simp [withSetting?]

@[simp] theorem withText_image (plugin : Plugin) (key value : String) :
    (plugin.withText key value).image = plugin.image := by
  simp [withText]

@[simp] theorem withText?_image (plugin : Plugin) (key : String) (value : Option String) :
    (plugin.withText? key value).image = plugin.image := by
  simp [withText?]

@[simp] theorem withTexts_image (plugin : Plugin) (key : String) (values : List String) :
    (plugin.withTexts key values).image = plugin.image := by
  simp [withTexts]

@[simp] theorem withBool?_image (plugin : Plugin) (key : String) (value : Option Bool) :
    (plugin.withBool? key value).image = plugin.image := by
  simp [withBool?]

end Plugin

namespace Converter

@[simp] theorem inContext_image (plugin : Plugin) (context : Context) :
    (inContext plugin context).image = plugin.image := rfl

@[simp] theorem plugin_image (image : String) : (plugin image).image = image := rfl

end Converter

def isToolImage (image : String) : Bool :=
  Tool.all.any fun tool => tool.pluginImage = image

private theorem Task.plugin_tool?_eq_none {plugin : Plugin}
    (foreign : isToolImage plugin.image = false) :
    (Task.plugin plugin).tool? = none := by
  simp only [Task.tool?, List.find?_eq_none]
  intro tool member same
  have found : isToolImage plugin.image = true :=
    List.any_eq_true.mpr ⟨tool, member, same⟩
  rw [foreign] at found
  cases found

/-! ## Single answers -/

/-- A converter that, whatever the context, skips a span or makes one task of it under the span's
own id and name, and that runs no plugin of a tool. -/
def Convert.Standard (convert : Convert) : Prop :=
  ∀ span,
    (∃ skipped, ∀ context, convert span context = .error skipped) ∨
      ∃ payload : Context → Task, ∀ context,
        convert span context =
          .ok [.task (Converter.infoFor span context) (payload context)] ∧
        (payload context).tool? = none

namespace Converter

theorem standard_of_pure {convert : Convert} (payload : Span → Context → Task)
    (shape : ∀ span context,
      convert span context = .ok [.task (infoFor span context) (payload span context)])
    (foreign : ∀ span context, (payload span context).tool? = none) :
    convert.Standard := by
  intro span
  exact .inr ⟨payload span, fun context => ⟨shape span context, foreign span context⟩⟩

theorem standard_of_bind {α : Type} {convert : Convert} (needed : Span → Except Skipped α)
    (payload : Span → α → Context → Task)
    (shape : ∀ span context, convert span context = needed span >>= fun value =>
      pure [.task (infoFor span context) (payload span value context)])
    (foreign : ∀ span value context, (payload span value context).tool? = none) :
    convert.Standard := by
  intro span
  cases found : needed span with
  | error skipped =>
      refine .inl ⟨skipped, fun context => ?_⟩
      rw [shape, found]
      rfl
  | ok value =>
      refine .inr ⟨payload span value, fun context => ⟨?_, foreign span value context⟩⟩
      rw [shape, found]
      rfl

/-! ### Scripts -/

theorem shell_standard (kind : Shell) : Convert.Standard (shell kind) :=
  standard_of_bind (fun span => required "script" span.shellScript?)
    (fun _ script context => .script (context.script kind script))
    (fun _ _ => rfl) (fun _ _ _ => rfl)

theorem echo_standard : Convert.Standard echo :=
  standard_of_pure _ (fun _ _ => rfl) (fun _ _ => rfl)

theorem sleep_standard : Convert.Standard sleep :=
  standard_of_pure _ (fun _ _ => rfl) (fun _ _ => rfl)

theorem writeFile_standard : Convert.Standard writeFile :=
  standard_of_bind (fun span => required "file" (span.param "file").text?) _
    (fun _ _ => rfl) (fun _ _ _ => rfl)

theorem fileCommand_standard (command : String) : Convert.Standard (fileCommand command) :=
  standard_of_bind (fun span => required "file" (span.param "file").text?) _
    (fun _ _ => rfl) (fun _ _ _ => rfl)

theorem deleteDirectory_standard : Convert.Standard deleteDirectory :=
  standard_of_pure _ (fun _ _ => rfl) (fun _ _ => rfl)

theorem error_standard : Convert.Standard error :=
  standard_of_pure _ (fun _ _ => rfl) (fun _ _ => rfl)

theorem placeholder_standard : Convert.Standard placeholder :=
  standard_of_pure _ (fun _ _ => rfl) (fun _ _ => rfl)

/-! ### Plugins -/

theorem standard_of_plugin {α : Type} {convert : Convert} (image : String)
    (needed : Span → Except Skipped α) (settings : Span → α → Plugin)
    (shape : ∀ span context, convert span context = needed span >>= fun value =>
      pure [pluginStep span context (settings span value)])
    (foreign : isToolImage image = false)
    (same : ∀ span value, (settings span value).image = image) :
    convert.Standard := by
  refine standard_of_bind needed
    (fun span value context => .plugin (inContext (settings span value) context)) shape ?_
  intro span value context
  apply Task.plugin_tool?_eq_none
  rw [inContext_image, same]
  exact foreign

theorem standard_of_pure_plugin {convert : Convert} (image : String) (settings : Span → Plugin)
    (shape : ∀ span context,
      convert span context = .ok [pluginStep span context (settings span)])
    (foreign : isToolImage image = false) (same : ∀ span, (settings span).image = image) :
    convert.Standard :=
  standard_of_plugin image (fun _ => .ok ()) (fun span _ => settings span) shape foreign
    fun span _ => same span

theorem archiveArtifacts_standard : Convert.Standard archiveArtifacts :=
  standard_of_plugin "plugins/archive"
    (fun span => requiredPatterns "artifacts" (span.param "artifacts")) _ (fun _ _ => rfl)
    (by decide) fun _ _ => by simp

theorem junit_standard : Convert.Standard junit :=
  standard_of_plugin "plugins/junit"
    (fun span => requiredPatterns "testResults" (span.param "testResults")) _ (fun _ _ => rfl)
    (by decide) fun _ _ => by simp

theorem stash_standard : Convert.Standard stash :=
  standard_of_plugin "plugins/cache" (fun span => required "name" (span.param "name").text?) _
    (fun _ _ => rfl) (by decide) fun _ _ => by simp

theorem unstash_standard : Convert.Standard unstash :=
  standard_of_plugin "plugins/cache" (fun span => required "name" (span.param "name").text?) _
    (fun _ _ => rfl) (by decide) fun _ _ => by simp

theorem s3Upload_standard : Convert.Standard s3Upload :=
  standard_of_plugin "plugins/s3"
    (fun span => required "bucket"
      ((span.sidecar.root.find "bucket").text?.or (span.params.find "bucket").text?)) _
    (fun _ _ => rfl) (by decide) fun _ _ => by simp

theorem slackSend_standard : Convert.Standard slackSend :=
  standard_of_pure_plugin "plugins/slack" _ (fun _ _ => rfl) (by decide) fun _ => by simp

theorem mail_standard : Convert.Standard mail :=
  standard_of_plugin "plugins/email"
    (fun span => required "recipients" (span.param "to").text?) _ (fun _ _ => rfl) (by decide)
    fun _ _ => by simp [List.foldl]

@[simp] theorem jira_image (site : Option String) : (jira site).image = "plugins/jira" := by
  simp [jira]

theorem jiraBuildInfo_standard : Convert.Standard jiraBuildInfo :=
  standard_of_pure_plugin "plugins/jira" _ (fun _ _ => rfl) (by decide) fun _ => by simp

theorem jiraDeploymentInfo_standard : Convert.Standard jiraDeploymentInfo :=
  standard_of_pure_plugin "plugins/jira" _ (fun _ _ => rfl) (by decide) fun _ => by simp

theorem checkout_standard : Convert.Standard checkout :=
  standard_of_plugin "harness/drone-git"
    (fun span => required "repository url" span.repository?) _ (fun _ _ => rfl) (by decide)
    fun _ _ => by simp

end Converter

/-! ## The registry of the library -/

namespace Registry

/-- All converters of a registry have a property, the fallback too. -/
structure All (property : Convert → Prop) (registry : Registry) : Prop where
  converters : ∀ entry ∈ registry.converters, property entry.2.convert
  fallback : property registry.fallback

theorem All.insert {property : Convert → Prop} {registry : Registry}
    (all : registry.All property) (stepType : String) (converter : Converter)
    (added : property converter.convert) :
    All property
      { registry with converters := registry.converters.insert stepType converter } where
  converters := by
    intro entry member
    rcases Entries.mem_insert member with rfl | old
    · exact added
    · exact all.converters entry old
  fallback := all.fallback

private theorem All.foldl {property : Convert → Prop}
    (register : Registry → String × Convert → Registry)
    (keeps : ∀ registry entry, All property registry → property entry.2 →
      (register registry entry).All property)
    {registry : Registry} (all : registry.All property) {entries : List (String × Convert)}
    (added : ∀ entry ∈ entries, property entry.2) :
    (entries.foldl register registry).All property := by
  induction entries generalizing registry with
  | nil => exact all
  | cons entry rest ih =>
      exact ih (keeps registry entry all (added entry (.head _)))
        fun other member => added other (.tail _ member)

theorem builtin_all {property : Convert → Prop} (fallback : property Converter.placeholder)
    (plain : ∀ entry ∈ builtinConverters, property entry.2)
    (sidecar : ∀ entry ∈ builtinSidecarConverters, property entry.2) :
    builtin.All property := by
  have start : empty.All property := ⟨by simp [empty], fallback⟩
  have most := start.foldl (fun registry entry => registry.register entry.1 entry.2)
    (fun registry entry all added => all.insert entry.1 ⟨entry.2, false⟩ added) plain
  exact most.foldl (fun registry entry => registry.registerWithSidecar entry.1 entry.2)
    (fun registry entry all added => all.insert entry.1 ⟨entry.2, true⟩ added) sidecar

theorem All.of_get? {property : Convert → Prop} {registry : Registry}
    (all : registry.All property) {stepType : String} {converter : Converter}
    (found : registry.get? stepType = some converter) : property converter.convert :=
  all.converters _ (Entries.mem_of_get? found)

structure AllStandard (registry : Registry) : Prop where
  converters : ∀ entry ∈ registry.converters, entry.2.convert.Standard
  fallback : registry.fallback.Standard

open Converter in
theorem builtinConverters_standard : ∀ entry ∈ builtinConverters, entry.2.Standard := by
  simp only [builtinConverters, List.forall_mem_cons, List.not_mem_nil, false_implies,
    implies_true, and_true]
  exact ⟨shell_standard _, shell_standard _, shell_standard _, shell_standard _, echo_standard,
    sleep_standard, writeFile_standard, fileCommand_standard _, fileCommand_standard _,
    deleteDirectory_standard, deleteDirectory_standard, error_standard, checkout_standard,
    checkout_standard, archiveArtifacts_standard, junit_standard, stash_standard,
    unstash_standard, slackSend_standard, mail_standard, mail_standard⟩

open Converter in
theorem builtinSidecarConverters_standard :
    ∀ entry ∈ builtinSidecarConverters, entry.2.Standard := by
  simp only [builtinSidecarConverters, List.forall_mem_cons, List.not_mem_nil, false_implies,
    implies_true, and_true]
  exact ⟨s3Upload_standard, jiraBuildInfo_standard, jiraDeploymentInfo_standard⟩

theorem builtin_allStandard : builtin.AllStandard := by
  have all := builtin_all Converter.placeholder_standard builtinConverters_standard
    builtinSidecarConverters_standard
  exact ⟨all.converters, all.fallback⟩

/-- Every shell step has a converter, and one that needs no sidecar. -/
def ConvertsShells (registry : Registry) : Prop :=
  ∀ {stepType : String} {kind : Shell}, Shell.ofStepType? stepType = some kind →
    ∃ converter, registry.dispatch stepType = .convert converter ∧
      converter.requiresSidecar = false

theorem builtin_dispatch_shell {stepType : String} {kind : Shell}
    (found : Shell.ofStepType? stepType = some kind) :
    builtin.dispatch stepType = .convert ⟨Converter.shell kind, false⟩ := by
  simp only [Shell.ofStepType?, Bool.or_eq_true, decide_eq_true_eq] at found
  split at found
  case isTrue same =>
    cases found
    subst same
    rfl
  split at found
  case isTrue same =>
    cases found
    rcases same with rfl | rfl
    · rfl
    · rfl
  split at found
  case isTrue same =>
    cases found
    subst same
    rfl
  case isFalse => cases found

theorem builtin_convertsShells : builtin.ConvertsShells := by
  intro stepType kind found
  exact ⟨_, builtin_dispatch_shell found, rfl⟩

/-- A registry all of whose converters are standard, with one for each kind of shell. -/
structure Standard (registry : Registry) : Prop extends registry.AllStandard where
  shells : registry.ConvertsShells

theorem builtin_standard : builtin.Standard where
  toAllStandard := builtin_allStandard
  shells := builtin_convertsShells

/-! ## Dispatch -/

/-- The ways in which a step type comes by its handling. -/
theorem dispatch_cases (registry : Registry) (stepType : String) :
    registry.dispatch stepType = .passthrough ∨
      (stepType, registry.dispatch stepType) ∈ structuralTypes ∨
      (∃ converter, registry.get? stepType = some converter ∧
        (registry.dispatch stepType = .checkout converter ∨
          registry.dispatch stepType = .convert converter)) ∨
      registry.dispatch stepType = .unknown := by
  unfold dispatch
  split
  · exact .inl rfl
  cases own : structuralTypes.lookup stepType with
  | some handling => exact .inr (.inl (Entries.mem_of_get? own))
  | none =>
      cases found : registry.get? stepType with
      | none => exact .inr (.inr (.inr rfl))
      | some converter =>
          refine .inr (.inr (.inl ⟨converter, rfl, ?_⟩))
          by_cases clones : stepType = "checkout" ∨ stepType = "git"
          · exact .inl (by simp [clones])
          · exact .inr (by simp [clones])

theorem get?_of_dispatch {registry : Registry} {stepType : String} {converter : Converter}
    (dispatched : registry.dispatch stepType = .checkout converter ∨
      registry.dispatch stepType = .convert converter) :
    registry.get? stepType = some converter := by
  rcases registry.dispatch_cases stepType with pass | own | ⟨other, found, either⟩ | unknown
  · simp [pass] at dispatched
  · rcases dispatched with same | same
    all_goals
      rw [same] at own
      simp [structuralTypes] at own
  · rcases dispatched with same | same
    all_goals
      have registered : converter = other := by simpa [same] using either
      rw [found, registered]
  · simp [unknown] at dispatched

theorem eq_of_dispatch_stage {registry : Registry} {stepType : String}
    (dispatched : registry.dispatch stepType = .stage) : stepType = "stage" := by
  rcases registry.dispatch_cases stepType with pass | own | ⟨_, _, either⟩ | unknown
  · simp [pass] at dispatched
  · rw [dispatched] at own
    simpa [structuralTypes] using own
  · simp [dispatched] at either
  · simp [unknown] at dispatched

theorem AllStandard.of_get? {registry : Registry} (standard : registry.AllStandard)
    {stepType : String} {converter : Converter}
    (found : registry.get? stepType = some converter) : converter.convert.Standard :=
  standard.converters _ (Entries.mem_of_get? found)

end Registry

end TracePipeline
