import TracePipeline.Proofs.StepRoundTrip

/-! Pipelines are read back from their JSON texts. The reader of pipelines is right for all that is
written of a pipeline, and the text of what is written has no other numbers than integers. -/

set_option autoImplicit false

namespace TracePipeline

open Json (field? textField? textsByKey? texts? word32)
open TracePipeline.Tree (Reads readOption readString readList reads_option reads_string)

/-! ## Stages and pipelines -/

theorem CloneSettings.reads_toJson (clone : CloneSettings) : Reads read clone.toJson clone := by
  refine Tree.reads_record (?_ : Slot.Fills slots {} _
    { disabled := some clone.disabled, depth := clone.depth.map some }) ?_
  · rw [← List.append_nil (field? _ _)]
    refine Slot.fills_entry rfl rfl (Tree.reads_bool clone.disabled) ?_
    refine Slot.fills_field? (fun draft depth => { draft with depth }) some
      ⟨rfl, rfl, rfl, fun _ => rfl⟩ (fun depth _ => reads_option rfl (Tree.reads_word32 depth)) ?_
    exact Slot.fills_nil _
  · change Except.ok _ = _
    rw [Json.getD_map_some]

theorem Repository.reads_toJson (repository : Repository) :
    Reads read repository.toJson repository := by
  refine Tree.reads_record (?_ : Slot.Fills slots {} _
    { url := some repository.url, branch := repository.branch.map some,
      connector := repository.connector.map some }) ?_
  · rw [← List.append_nil (textField? "connector" _), List.append_assoc]
    refine Slot.fills_entry rfl rfl (reads_string repository.url) ?_
    refine Slot.fills_text? (fun draft branch => { draft with branch })
      ⟨rfl, rfl, rfl, fun _ => rfl⟩ ?_
    refine Slot.fills_text? (fun draft connector => { draft with connector })
      ⟨rfl, rfl, rfl, fun _ => rfl⟩ ?_
    exact Slot.fills_nil _
  · change Except.ok _ = _
    simp only [Json.getD_map_some]

namespace Stage

/-- All tasks of a stage are plain. -/
def Plain (stage : Stage) : Prop :=
  ∀ step ∈ stage.steps, step.Plain

private theorem reads_spec {stage : Stage} (plain : stage.Plain) :
    Reads readSpec (.object (field? "clone" (stage.clone.map CloneSettings.toJson) ++
      [("steps", .array (Step.toJsonAll stage.steps))])) (stage.clone, stage.steps) := by
  refine Tree.reads_record (?_ : Slot.Fills specSlots {} _
    { clone := stage.clone.map some, steps := some stage.steps }) ?_
  · have steps := Step.reads_steps fun step member => (plain step member).reads_toJson .streamed
    refine Slot.fills_field? (fun draft clone => { draft with clone }) some
      ⟨rfl, rfl, rfl, fun _ => rfl⟩
      (fun clone _ => reads_option rfl (CloneSettings.reads_toJson clone)) ?_
    exact Slot.fills_entry rfl rfl steps (Slot.fills_nil _)
  · change Except.ok _ = _
    rw [Json.getD_map_some]

theorem reads_toJson {stage : Stage} (plain : stage.Plain) : Reads read stage.toJson stage := by
  refine Tree.reads_record (?_ : Slot.Fills slots {} _
    { id := some stage.id, name := some stage.name, stageType := some stage.stageType,
      spec := some (stage.clone, stage.steps) }) rfl
  refine Slot.fills_entry rfl rfl (reads_string stage.id) ?_
  refine Slot.fills_entry rfl rfl (reads_string stage.name) ?_
  refine Slot.fills_entry rfl rfl (reads_string stage.stageType) ?_
  exact Slot.fills_entry rfl rfl (reads_spec plain) (Slot.fills_nil _)

end Stage

namespace Pipeline

/-- All tasks of a pipeline are plain: their maps are in key order, and the numbers in the settings
of plugins are integers that 64 bits hold. -/
def Plain (pipeline : Pipeline) : Prop :=
  ∀ stage ∈ pipeline.stages, stage.Plain

private theorem reads_spec {pipeline : Pipeline} (plain : pipeline.Plain) :
    Reads readSpec (.object ([("stages", .array (pipeline.stages.map Stage.toJson))] ++
      field? "repository" (pipeline.repository.map Repository.toJson)))
      (pipeline.stages, pipeline.repository) := by
  refine Tree.reads_record (?_ : Slot.Fills specSlots {} _
    { stages := some pipeline.stages, repository := pipeline.repository.map some }) ?_
  · have stages := Tree.reads_list fun stage member => Stage.reads_toJson (plain stage member)
    rw [← List.append_nil (field? _ _)]
    refine Slot.fills_entry rfl rfl stages ?_
    refine Slot.fills_field? (fun draft repository => { draft with repository }) some
      ⟨rfl, rfl, rfl, fun _ => rfl⟩
      (fun repository _ => reads_option rfl (Repository.reads_toJson repository)) ?_
    exact Slot.fills_nil _
  · change Except.ok _ = _
    rw [Json.getD_map_some]

theorem reads_toJson {pipeline : Pipeline} (plain : pipeline.Plain) :
    Reads read pipeline.toJson pipeline := by
  refine Tree.reads_record (?_ : Slot.Fills slots {} _
    { version := some pipeline.version, kind := some pipeline.kind, name := some pipeline.name,
      spec := some (pipeline.stages, pipeline.repository) }) rfl
  refine Slot.fills_entry rfl rfl (Tree.reads_word32 pipeline.version) ?_
  refine Slot.fills_entry rfl rfl (reads_string pipeline.kind) ?_
  refine Slot.fills_entry rfl rfl (reads_string pipeline.name) ?_
  exact Slot.fills_entry rfl rfl (reads_spec plain) (Slot.fills_nil _)

end Pipeline

/-! ## Numbers -/

namespace Json

theorem integral_word32 (value : UInt32) : (word32 value).Integral := by
  have bound := value.toNat_lt
  refine .integer ⟨?_, ?_⟩ <;> omega

theorem integral_field? (name : String) {α : Type} {value : Option α} {encode : α → Json}
    (each : ∀ found, value = some found → (encode found).Integral) :
    ∀ entry ∈ field? name (value.map encode), entry.2.Integral := by
  intro entry member
  cases value with
  | none => cases member
  | some found =>
      cases List.mem_singleton.mp member
      exact each found rfl

theorem integral_textField? (name : String) (value : Option String) :
    ∀ entry ∈ textField? name value, entry.2.Integral :=
  integral_field? name fun found _ => .string found

theorem integral_textsByKey? (name : String) (values : Entries String) :
    ∀ entry ∈ textsByKey? name values, entry.2.Integral := by
  rw [textsByKey?_eq]
  refine integral_field? name fun found _ => .object fun entry member => ?_
  obtain ⟨text, -, rfl⟩ := List.mem_map.mp member
  exact .string text.2

private theorem integral_texts? (name : String) (values : List String) :
    ∀ entry ∈ texts? name values, entry.2.Integral := by
  rw [texts?_eq]
  refine integral_field? name fun found _ => .array fun item member => ?_
  obtain ⟨text, -, rfl⟩ := List.mem_map.mp member
  exact .string text

end Json

open Json (integral_field? integral_textField? integral_textsByKey? integral_texts?
  integral_word32)

theorem Script.integral_toJson (script : Script) : script.toJson.Integral := by
  have flag : ∀ entry ∈ if script.privileged then [("privileged", Json.bool true)] else [],
      entry.2.Integral := by
    intro entry member
    split at member
    · cases List.mem_singleton.mp member
      exact .bool true
    · cases member
  refine .object ?_
  simp only [List.append_assoc, List.forall_mem_append, List.forall_mem_singleton]
  exact ⟨integral_textField? _ _, integral_textField? _ _, integral_textField? _ _,
    integral_textsByKey? _ _, integral_textField? _ _, integral_texts? _ _, flag,
    integral_textField? _ _, .string _⟩

theorem Plugin.Plain.integral_toJson {plugin : Plugin} (plain : plugin.Plain) :
    plugin.toJson.Integral := by
  have settings : ∀ entry ∈ if plugin.settings.isEmpty then []
      else [("with", Json.object plugin.settings)], entry.2.Integral := by
    intro entry member
    split at member
    · cases member
    · cases List.mem_singleton.mp member
      exact plain.settings.integral
  refine .object ?_
  simp only [List.append_assoc, List.forall_mem_append, List.forall_mem_singleton]
  exact ⟨.string _, integral_textField? _ _, settings, integral_textsByKey? _ _⟩

theorem Task.Plain.integral_toJson {work : Task} (plain : work.Plain) : work.toJson.Integral := by
  cases work with
  | script content => exact content.integral_toJson
  | plugin content => exact Plugin.Plain.integral_toJson plain
  | background content => exact content.integral_toJson

namespace Step

private theorem integral_assembleJson (step : Step) {inner : Json} (held : inner.Integral) :
    (step.assembleJson inner).Integral := by
  refine .object ?_
  simp only [List.forall_mem_append, List.forall_mem_cons]
  exact ⟨⟨.string _, .string _, .string _, held, nofun⟩, integral_textField? _ _⟩

theorem Plain.integral_toJson {step : Step} (plain : step.Plain) : step.toJson.Integral := by
  induction plain with
  | task plain => exact integral_assembleJson _ plain.integral_toJson
  | @block info kind steps each ih =>
      refine integral_assembleJson _ (.object ?_)
      rw [List.forall_mem_singleton, toJsonAll_eq_map]
      refine .array fun item member => ?_
      obtain ⟨step, inside, rfl⟩ := List.mem_map.mp member
      exact ih step inside

end Step

theorem CloneSettings.integral_toJson (clone : CloneSettings) : clone.toJson.Integral := by
  refine .object ?_
  simp only [List.forall_mem_append, List.forall_mem_singleton]
  exact ⟨.bool _, integral_field? _ fun depth _ => integral_word32 depth⟩

theorem Repository.integral_toJson (repository : Repository) : repository.toJson.Integral := by
  refine .object ?_
  simp only [List.append_assoc, List.forall_mem_append, List.forall_mem_singleton]
  exact ⟨.string _, integral_textField? _ _, integral_textField? _ _⟩

theorem Stage.Plain.integral_toJson {stage : Stage} (plain : stage.Plain) :
    stage.toJson.Integral := by
  have steps : (Json.array (Step.toJsonAll stage.steps)).Integral := by
    rw [Step.toJsonAll_eq_map]
    refine .array fun item member => ?_
    obtain ⟨step, inside, rfl⟩ := List.mem_map.mp member
    exact (plain step inside).integral_toJson
  refine .object ?_
  simp only [List.forall_mem_cons]
  refine ⟨.string _, .string _, .string _, .object ?_, nofun⟩
  simp only [List.forall_mem_append, List.forall_mem_singleton]
  exact ⟨integral_field? _ fun clone _ => clone.integral_toJson, steps⟩

namespace Pipeline

theorem Plain.integral_toJson {pipeline : Pipeline} (plain : pipeline.Plain) :
    pipeline.toJson.Integral := by
  have stages : (Json.array (pipeline.stages.map Stage.toJson)).Integral := by
    refine .array fun item member => ?_
    obtain ⟨stage, inside, rfl⟩ := List.mem_map.mp member
    exact (plain stage inside).integral_toJson
  refine .object ?_
  simp only [List.forall_mem_cons]
  refine ⟨integral_word32 _, .string _, .string _, .object ?_, nofun⟩
  simp only [List.forall_mem_append, List.forall_mem_singleton]
  exact ⟨stages, integral_field? _ fun repository _ => repository.integral_toJson⟩

/-! ## Texts of pipelines -/

/-- The text of a pipeline is read back as the pipeline, unless it is nested too deep for the
reader. -/
theorem ofText_jsonText {pipeline : Pipeline} (plain : pipeline.Plain)
    (shallow : pipeline.toJson.depth < Tree.levelLimit) :
    ofText pipeline.jsonText = .ok pipeline := by
  obtain ⟨tree, parsed, shows⟩ := Json.ofText_prettyText plain.integral_toJson shallow
  rw [ofText, jsonText, parsed, Document.read, reads_toJson plain tree shows]
  rfl

/-- A pipeline with all kinds of steps and most of their fields. -/
def assorted : Pipeline where
  version := 1
  kind := "pipeline"
  name := "say \"hi\"\n"
  stages := [{
    id := "ci"
    name := "CI"
    stageType := "ci"
    clone := some { disabled := true, depth := some 50 }
    steps := [
      .block { id := "both", name := "Both", timeout := some "1h" } .parallel [
        .block { id := "inner", name := "Inner" } .group [
          .task { id := "test", name := "Test", timeout := some "5m" } (.script {
            image := some "rust:1", shell := some .pwsh, envs := [("A", "1"), ("B", "")],
            args := ["-x"], privileged := true, run := "cargo test" })],
        .task { id := "push", name := "Push" } (.plugin {
          image := "plugins/push"
          settings := [("deep", .object [("keys", .array [.null, .bool false])]),
            ("limit", .number (.integer (-9223372036854775808))), ("tag", .string "é")] })],
      .task { id := "db", name := "Db" } (.background { network := some "host", run := "" })] }]
  repository := some { url := "https://example.com/r.git", branch := some "main" }

private theorem plain_assorted : assorted.Plain := by
  have deep : Json.Plain (.object [("keys", .array [.null, .bool false])]) := by
    refine .object (by decide) (List.forall_mem_singleton.mpr (.array ?_))
    simp only [List.forall_mem_cons]
    exact ⟨.null, .bool false, nofun⟩
  have settings : ∀ entry ∈ [("deep", .object [("keys", .array [.null, .bool false])]),
      ("limit", .number (.integer (-9223372036854775808))), ("tag", .string "é")],
      Json.Plain entry.2 := by
    simp only [List.forall_mem_cons]
    exact ⟨deep, .integer (by decide), .string _, nofun⟩
  intro stage member
  cases List.mem_singleton.mp member
  simp only [Stage.Plain, List.forall_mem_cons]
  refine ⟨.block ?_, .task ?_, nofun⟩
  · simp only [List.forall_mem_cons]
    refine ⟨.block (List.forall_mem_singleton.mpr (.task ?_)), .task ?_, nofun⟩
    · exact (by decide : Entries.Sorted [("A", "1"), ("B", "")])
    · exact ⟨.object (by decide) settings, by decide⟩
  · exact (by decide : Entries.Sorted ([] : Entries String))

theorem ofText_jsonText_assorted :
    assorted.Plain ∧ assorted.toJson.depth < Tree.levelLimit ∧
      ofText assorted.jsonText = .ok assorted := by
  have shallow : assorted.toJson.depth < Tree.levelLimit := by decide
  exact ⟨plain_assorted, shallow, ofText_jsonText plain_assorted shallow⟩

end Pipeline

end TracePipeline
