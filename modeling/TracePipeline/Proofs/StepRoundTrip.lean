import TracePipeline.Proofs.JsonDecoding

/-! What is written of a step is read back as the same step. Fields that were left out are restored
to what they were, and the kinds of steps are told apart again. -/

set_option autoImplicit false

namespace TracePipeline

open Json (field? textField? textsByKey? texts?)
open TracePipeline.Tree (Reads readOption readString readMap readList reads_option reads_string)

/-! ## Fields -/

namespace Json

/-- The values of a field that is left out when it is empty. -/
def given? {α : Type} (values : List α) : Option (List α) :=
  if values.isEmpty then none else some values

theorem getD_given? {α : Type} (values : List α) : (given? values).getD [] = values := by
  cases values <;> rfl

theorem eq_of_given? {α : Type} {values found : List α} (given : given? values = some found) :
    found = values := by
  cases values with
  | nil => cases given
  | cons => exact (Option.some.inj given).symm

theorem getD_map_some {α : Type} (value : Option α) : (value.map some).getD none = value := by
  cases value <;> rfl

theorem textsByKey?_eq (name : String) (values : Entries String) :
    textsByKey? name values =
      field? name ((given? values).map fun found => .object (Tree.mapEntries .string found)) := by
  cases values <;> rfl

theorem texts?_eq (name : String) (values : List String) :
    texts? name values =
      field? name ((given? values).map fun found => .array (found.map .string)) := by
  cases values <;> rfl

end Json

open Json (given?)

namespace Slot

variable {σ : Type} {slots : List (Slot σ)} {name : String} {draft filled : σ}
  {rest : List (String × Json)}

theorem fills_text? {get : σ → Option (Option String)} {set : σ → Option String → σ}
    {value : Option String} (put : σ → Option (Option String) → σ)
    (free : Free slots name (readOption readString) draft get set put)
    (others : Fills slots (put draft (value.map some)) rest filled) :
    Fills slots draft (textField? name value ++ rest) filled :=
  fills_field? put some free (fun found _ => reads_option rfl (reads_string found)) others

theorem fills_textsByKey? {get : σ → Option (Entries String)} {set : σ → Entries String → σ}
    {values : Entries String} (put : σ → Option (Entries String) → σ)
    (free : Free slots name (readMap readString) draft get set put) (sorted : values.Sorted)
    (others : Fills slots (put draft (given? values)) rest filled) :
    Fills slots draft (textsByKey? name values ++ rest) filled := by
  rw [Json.textsByKey?_eq]
  refine fills_value? put free ?_ others
  intro found given
  cases Json.eq_of_given? given
  exact Tree.reads_map sorted fun entry _ => reads_string entry.2

private theorem fills_texts? {get : σ → Option (List String)} {set : σ → List String → σ}
    {values : List String} (put : σ → Option (List String) → σ)
    (free : Free slots name (readList readString) draft get set put)
    (others : Fills slots (put draft (given? values)) rest filled) :
    Fills slots draft (texts? name values ++ rest) filled := by
  rw [Json.texts?_eq]
  refine fills_value? put free ?_ others
  intro found _
  exact Tree.reads_list fun text _ => reads_string text

end Slot

/-! ## Scripts and plugins -/

private theorem Shell.reads_name (origin : Origin) (shell : Shell) :
    Reads (Tree.readVariant origin Shell.named) (.string shell.name) shell := by
  cases shell <;> exact Tree.reads_variant origin rfl

namespace Script

/-- What has been read of a script once all that was written of it has been read. -/
def draft (script : Script) : ScriptDraft where
  image := script.image.map some
  connector := script.connector.map some
  shell := script.shell.map some
  envs := given? script.envs
  entrypoint := script.entrypoint.map some
  args := given? script.args
  privileged := if script.privileged then some true else none
  network := script.network.map some
  run := some script.run

private theorem finish_draft (script : Script) : finish script.draft = .ok script := by
  have flag : (if script.privileged then some true else none).getD false = script.privileged := by
    cases script.privileged <;> rfl
  change Except.ok _ = _
  simp only [draft, Json.getD_map_some, Json.getD_given?, flag]

theorem reads_toJson (origin : Origin) {script : Script} (sorted : script.envs.Sorted) :
    Reads (read origin) script.toJson script := by
  have flag : (if script.privileged then [("privileged", Json.bool true)] else []) =
      field? "privileged" ((if script.privileged then some true else none).map Json.bool) := by
    cases script.privileged <;> rfl
  have shell : textField? "shell" (script.shell.map Shell.name) =
      field? "shell" (script.shell.map fun shell => .string shell.name) := by
    cases script.shell <;> rfl
  refine Tree.reads_record ?_ (finish_draft script)
  rw [flag, shell]
  simp only [List.append_assoc]
  refine Slot.fills_text? (fun draft image => { draft with image }) ⟨rfl, rfl, rfl, fun _ => rfl⟩ ?_
  refine Slot.fills_text? (fun draft connector => { draft with connector })
    ⟨rfl, rfl, rfl, fun _ => rfl⟩ ?_
  refine Slot.fills_field? (fun draft shell => { draft with shell }) some
    ⟨rfl, rfl, rfl, fun _ => rfl⟩
    (fun shell _ => reads_option rfl (Shell.reads_name origin shell)) ?_
  refine Slot.fills_textsByKey? (fun draft envs => { draft with envs })
    ⟨rfl, rfl, rfl, fun _ => rfl⟩ sorted ?_
  refine Slot.fills_text? (fun draft entrypoint => { draft with entrypoint })
    ⟨rfl, rfl, rfl, fun _ => rfl⟩ ?_
  refine Slot.fills_texts? (fun draft args => { draft with args })
    ⟨rfl, rfl, rfl, fun _ => rfl⟩ ?_
  refine Slot.fills_value? (fun draft privileged => { draft with privileged })
    ⟨rfl, rfl, rfl, fun _ => rfl⟩ (fun flag _ => Tree.reads_bool flag) ?_
  refine Slot.fills_text? (fun draft network => { draft with network })
    ⟨rfl, rfl, rfl, fun _ => rfl⟩ ?_
  refine Slot.fills_entry rfl rfl (reads_string script.run) ?_
  exact Slot.fills_nil _

end Script

namespace Plugin

/-- What a plugin holds can be read back: its maps are in key order, and the numbers in its settings
are integers that 64 bits hold. -/
structure Plain (plugin : Plugin) : Prop where
  settings : Json.Plain (.object plugin.settings)
  envs : plugin.envs.Sorted

/-- What has been read of a plugin once all that was written of it has been read. -/
def draft (plugin : Plugin) : PluginDraft where
  image := some plugin.image
  connector := plugin.connector.map some
  settings := given? plugin.settings
  envs := given? plugin.envs

private theorem finish_draft (plugin : Plugin) : finish plugin.draft = .ok plugin := by
  change Except.ok _ = _
  simp only [draft, Json.getD_map_some, Json.getD_given?]

private theorem reads_settings {settings : Entries Json} (plain : Json.Plain (.object settings)) :
    Reads (readMap Tree.readJson) (.object settings) settings := by
  cases plain with
  | object sorted each =>
      have inside : ∀ entry ∈ settings, Reads Tree.readJson (id entry.2) entry.2 :=
        fun entry member => Tree.reads_json (each entry member)
      have same : Tree.mapEntries id settings = settings := List.map_id settings
      have reads := Tree.reads_map sorted inside
      rwa [same] at reads

theorem reads_toJson (origin : Origin) {plugin : Plugin} (plain : plugin.Plain) :
    Reads (read origin) plugin.toJson plugin := by
  have settings : (if plugin.settings.isEmpty then [] else [("with", .object plugin.settings)]) =
      field? "with" ((given? plugin.settings).map Json.object) := by
    cases plugin.settings <;> rfl
  refine Tree.reads_record ?_ (finish_draft plugin)
  rw [settings]
  simp only [List.append_assoc]
  refine Slot.fills_entry rfl rfl (reads_string plugin.image) ?_
  refine Slot.fills_text? (fun draft connector => { draft with connector })
    ⟨rfl, rfl, rfl, fun _ => rfl⟩ ?_
  refine Slot.fills_value? (fun draft settings => { draft with settings })
    ⟨rfl, rfl, rfl, fun _ => rfl⟩
    (fun found given => by cases Json.eq_of_given? given; exact reads_settings plain.settings) ?_
  rw [← List.append_nil (textsByKey? _ _)]
  refine Slot.fills_textsByKey? (fun draft envs => { draft with envs })
    ⟨rfl, rfl, rfl, fun _ => rfl⟩ plain.envs ?_
  exact Slot.fills_nil _

end Plugin

/-! ## Steps -/

/-- The maps of a task can be read back. -/
def Task.Plain : Task → Prop
  | .plugin content => content.Plain
  | .script content => content.envs.Sorted
  | .background content => content.envs.Sorted

namespace Step

/-- All tasks among a step and the steps inside it are plain. -/
inductive Plain : Step → Prop
  | task {info : StepInfo} {work : Task} (plain : work.Plain) : Plain (.task info work)
  | block {info : StepInfo} {kind : Block} {steps : List Step}
      (each : ∀ step ∈ steps, Plain step) : Plain (.block info kind steps)

def kind : Step → StepKind
  | .task _ (.script _) => .script
  | .task _ (.plugin _) => .plugin
  | .task _ (.background _) => .background
  | .block _ .group _ => .group
  | .block _ .parallel _ => .parallel

def body : Step → StepBody
  | .task _ work => .task work
  | .block _ kind steps => .block kind steps

private theorem toStep_body (step : Step) : step.body.toStep step.info = step := by
  cases step <;> rfl

private theorem reads_kind (step : Step) :
    Reads (Tree.readVariant .buffered StepKind.named) (.string step.typeName) step.kind := by
  cases step with
  | task info work => cases work <;> exact Tree.reads_variant _ rfl
  | block info kind steps => cases kind <;> exact Tree.reads_variant _ rfl

theorem keepBack_eq_ok (origin : Origin) {value : Json} {tree : Tree}
    (shows : Tree.Shows value tree) : keepBack origin tree = .ok () := by
  cases origin with
  | streamed =>
      rw [keepBack, shows.readJson_eq]
      rfl
  | buffered | inline => rfl

variable {origin : Origin} {key : Key} {tree : Tree} {value : Json}

private theorem readEntries_type (named : key.text = .ok "type") (shows : Tree.Shows value tree)
    (draft : StepDraft) (entries : List (Key × Tree)) :
    readEntries origin draft ((key, tree) :: entries) =
      readEntries origin { draft with
        parts := draft.parts ++ [.kind (Tree.readVariant .buffered StepKind.named tree)] }
        entries := by
  rw [readEntries, named]
  change (keepBack origin tree >>= _) = _
  rw [keepBack_eq_ok origin shows]
  rfl

private theorem readEntries_spec (named : key.text = .ok "spec") (shows : Tree.Shows value tree)
    (draft : StepDraft) (entries : List (Key × Tree)) :
    readEntries origin draft ((key, tree) :: entries) =
      readEntries origin { draft with
        parts := draft.parts ++ [.body fun kind => readBody kind tree] } entries := by
  rw [readEntries, named]
  change (keepBack origin tree >>= _) = _
  rw [keepBack_eq_ok origin shows]
  rfl

theorem readEntries_slot {name : String} (named : key.text = .ok name)
    (apart : name ≠ "type" ∧ name ≠ "spec")
    (known : (slots.any fun slot => slot.answersTo name) = true) {draft filled : StepDraft}
    (filling : Slot.fillEntry slots draft key name tree = .ok filled)
    (entries : List (Key × Tree)) :
    readEntries origin draft ((key, tree) :: entries) = readEntries origin filled entries := by
  rw [readEntries, named]
  change (if name = "type" then _ else if name = "spec" then _ else if _ then _ else _) = _
  rw [if_neg apart.1, if_neg apart.2, if_pos known, filling]
  rfl

/-- What has been read of a step once all that was written of it has been read. What its kind needs
is kept back as a tree. -/
def draft (step : Step) (kind body : Tree) : StepDraft where
  id := some step.id
  name := some step.name
  timeout := step.timeout.map some
  parts := [.kind (Tree.readVariant .buffered StepKind.named kind),
    .body fun kind => readBody kind body]

private theorem finish_draft {step : Step} {kind body : Tree}
    (named : Tree.readVariant .buffered StepKind.named kind = .ok step.kind)
    (held : readBody step.kind body = .ok step.body) :
    finish (step.draft kind body) = .ok step := by
  have parts : StepPart.assemble (step.draft kind body).parts = .ok step.body := by
    rw [draft, StepPart.assemble, named]
    change (readBody step.kind body >>= _) = _
    rw [held]
    rfl
  have info : StepInfo.mk step.id step.name ((step.draft kind body).timeout.getD none) =
      step.info := by
    rw [draft, Json.getD_map_some]
    rfl
  change (StepPart.assemble (step.draft kind body).parts >>= _) = _
  rw [parts]
  change Except.ok (step.body.toStep (StepInfo.mk _ _ _)) = _
  rw [info, toStep_body]

private theorem readEntries_timeout {timeout : Option String} {draft : StepDraft}
    (unset : draft.timeout = none) {parts : List (Key × Tree)}
    (shown : List.Forall₂ Tree.ShowsEntry (textField? "timeout" timeout) parts) :
    readEntries origin draft parts = .ok { draft with timeout := timeout.map some } := by
  cases timeout with
  | none =>
      cases shown
      rw [readEntries, Option.map_none, ← unset]
  | some timeout =>
      obtain _ | ⟨⟨named, own⟩, shown⟩ := shown
      cases shown
      have read := reads_option rfl (reads_string timeout) _ own
      rw [readEntries_slot named (by simp) rfl (Slot.fillEntry_eq_ok rfl unset read _)]
      rfl

private theorem readEntries_assembleJson (step : Step) {inner : Json}
    {entries : List (String × Json)}
    (written : step.assembleJson inner = .object entries) {parts : List (Key × Tree)}
    (shown : List.Forall₂ Tree.ShowsEntry entries parts) :
    ∃ kind body, Tree.Shows (.string step.typeName) kind ∧ Tree.Shows inner body ∧
      readEntries origin {} parts = .ok (step.draft kind body) := by
  cases written
  -- Four entries are always written; behind them there may be a timeout.
  obtain _ | ⟨⟨idKey, idShown⟩, shown⟩ := shown
  obtain _ | ⟨⟨nameKey, nameShown⟩, shown⟩ := shown
  obtain _ | ⟨⟨typeKey, typeShown⟩, shown⟩ := shown
  obtain _ | ⟨⟨specKey, specShown⟩, shown⟩ := shown
  refine ⟨_, _, typeShown, specShown, ?_⟩
  have id := reads_string step.id _ idShown
  have name := reads_string step.name _ nameShown
  rw [readEntries_slot idKey (by simp) rfl (Slot.fillEntry_eq_ok rfl rfl id _),
    readEntries_slot nameKey (by simp) rfl (Slot.fillEntry_eq_ok rfl rfl name _),
    readEntries_type typeKey typeShown, readEntries_spec specKey specShown,
    readEntries_timeout rfl shown]
  rfl

private theorem reads_assembleJson {step : Step} {inner : Json}
    (held : Reads (readBody step.kind) inner step.body) :
    Reads (read origin) (step.assembleJson inner) step := by
  intro tree shows
  obtain ⟨start, level, parts, stop, rfl, within, shown⟩ := shows.object_eq
  obtain ⟨kind, body, kindShown, bodyShown, entries⟩ := step.readEntries_assembleJson rfl shown
  have finished := finish_draft (step.reads_kind kind kindShown) (held body bodyShown)
  rw [read, Tree.enter_eq_ok within]
  change (readEntries origin {} parts >>= _) = _
  rw [entries]
  change (finish (step.draft kind body)).mapError _ = _
  rw [finished]
  rfl

private theorem readBody_of_block?_eq_none {kind : StepKind} (single : kind.block? = none)
    (tree : Tree) :
    readBody kind tree = readTask kind tree := by
  cases kind with
  | script | plugin | background => cases tree <;> rfl
  | group | parallel => cases single

private theorem reads_task {info : StepInfo} {work : Task} (plain : work.Plain) :
    Reads (readBody (task info work).kind) work.toJson (.task work) := by
  intro tree shows
  cases work with
  | script content =>
      rw [readBody_of_block?_eq_none rfl]
      change (Script.read .buffered tree).map _ = _
      rw [Script.reads_toJson .buffered plain tree shows]
      rfl
  | plugin content =>
      rw [readBody_of_block?_eq_none rfl]
      change (Plugin.read .buffered tree).map _ = _
      rw [Plugin.reads_toJson .buffered plain tree shows]
      rfl
  | background content =>
      rw [readBody_of_block?_eq_none rfl]
      change (Script.read .buffered tree).map _ = _
      rw [Script.reads_toJson .buffered plain tree shows]
      rfl

theorem toJsonAll_eq_map (steps : List Step) : toJsonAll steps = steps.map toJson := by
  induction steps with
  | nil => rfl
  | cons step steps ih => rw [toJsonAll, ih, List.map_cons]

private theorem readAll_eq_mapM (items : List Tree) :
    readAll origin items = items.mapM (read origin) := by
  induction items with
  | nil => rfl
  | cons item items ih => rw [readAll, ih, List.mapM_cons]

theorem reads_steps {steps : List Step}
    (each : ∀ step ∈ steps, Reads (read origin) step.toJson step) :
    Reads (readList origin) (.array (toJsonAll steps)) steps := by
  intro tree shows
  obtain ⟨start, level, trees, stop, rfl, within, shown⟩ := shows.array_eq
  rw [toJsonAll_eq_map] at shown
  rw [readList, Tree.enter_eq_ok within, readAll_eq_mapM, Tree.mapM_eq_ok each shown]
  rfl

private theorem readBody_object {kind : StepKind} {block : Block} (known : kind.block? = some block)
    {start stop : Position} {level : Nat} {parts : List (Key × Tree)} {steps : List Step}
    (inner : readInner none parts = .ok (some steps)) :
    readBody kind (.object start level parts (.closed stop)) = .ok (.block block steps) := by
  cases kind with
  | script | plugin | background => cases known
  | group | parallel =>
      cases known
      change (readInner none parts >>= _) = _
      rw [inner]
      rfl

private theorem reads_block {kind : StepKind} {block : Block} (known : kind.block? = some block)
    {steps : List Step} (each : ∀ step ∈ steps, Reads (read .buffered) step.toJson step) :
    Reads (readBody kind) (.object [(stepsName, .array (toJsonAll steps))])
      (.block block steps) := by
  intro tree shows
  obtain ⟨start, level, parts, stop, rfl, within, shown⟩ := shows.object_eq
  obtain _ | ⟨⟨named, own⟩, shown⟩ := shown
  cases shown
  have inner := reads_steps each _ own
  refine readBody_object known ?_
  rw [readInner, named]
  change (readList .buffered _ >>= _) = _
  rw [inner]
  rfl

theorem Plain.reads_toJson {step : Step} (plain : step.Plain) (origin : Origin) :
    Reads (read origin) step.toJson step := by
  induction plain generalizing origin with
  | task plain => exact reads_assembleJson (reads_task plain)
  | @block info kind steps each ih =>
      -- Wherever the block is read from, its steps are kept back until its kind is known.
      have inside : ∀ step ∈ steps, Reads (read .buffered) step.toJson step :=
        fun step member => ih step member .buffered
      refine reads_assembleJson (reads_block ?_ inside)
      cases kind <;> rfl

end Step

end TracePipeline
