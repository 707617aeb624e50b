import TracePipeline.Proofs.Entries
import TracePipeline.Proofs.Ledger
import TracePipeline.Proofs.Trimming

/-! The nearest wrapper wins. Wrappers change the context from the outermost inward. In the end each
field comes from the innermost wrapper that says something about it; a wrapper of one kind leaves
the fields of the other kinds alone. -/

set_option autoImplicit false

namespace TracePipeline

/-! ## The last item that says something -/

/-- The value that the last of the items gives that gives any. -/
def Last {α β : Type} (gives : α → β → Prop) (items : List α) (value : β) : Prop :=
  ∃ before item after, items = before ++ item :: after ∧ gives item value ∧
    ∀ later ∈ after, ∀ other, ¬gives later other

theorem last_iff_findSome? {α β : Type} {gives : α → β → Prop} {give : α → Option β}
    (same : ∀ item value, give item = some value ↔ gives item value) (items : List α)
    (value : β) : items.reverse.findSome? give = some value ↔ Last gives items value := by
  have silent (item : α) : give item = none ↔ ∀ other, ¬gives item other := by
    simp only [Option.eq_none_iff_forall_ne_some, ne_eq, same]
  rw [List.findSome?_eq_some_iff]
  constructor
  · intro holds
    obtain ⟨after, item, before, split, found, passed⟩ := holds
    refine ⟨before.reverse, item, after.reverse, ?_, (same item value).mp found, ?_⟩
    · have whole := congrArg List.reverse split
      simpa using whole
    · intro later member
      exact (silent later).mp (passed later (List.mem_reverse.mp member))
  · intro holds
    obtain ⟨before, item, after, rfl, found, passed⟩ := holds
    refine ⟨after.reverse, item, before.reverse, by simp, (same item value).mpr found, ?_⟩
    intro later member
    exact (silent later).mpr (passed later (List.mem_reverse.mp member))

/-! ## What wrappers declare -/

/-- What an entry sets: the name in front of its first equals sign, without the blanks around it, to
the text behind that sign as it stands. An entry without the sign or without a name sets nothing. -/
def SetsVariable (entry name value : String) : Prop :=
  ∃ key, entry.toList = key ++ '=' :: value.toList ∧ '=' ∉ key ∧ Text.HasCore key name.toList

/-- The variables of a bound credential: under each of the keys for them a name with blanks around
it. -/
def BindsVariable (binding : Entries Json) (name : String) : Prop :=
  ∃ key ∈ Span.credentialKeys, ∃ text, binding.get? key = some (.string text) ∧
    Text.HasCore text.toList name.toList

/-- The text of a text, a number or a truth value. -/
inductive Json.HasText : Json → String → Prop
  | string (text : String) : HasText (.string text) text
  | number (number : Number) : HasText (.number number) (String.ofList number.text)
  | true : HasText (.bool true) "true"
  | false : HasText (.bool false) "false"

/-- A parameter names a text in which there is something to see. -/
structure Param.Names (param : Param) (text : String) : Prop where
  value : ∃ value, param = some value ∧ value.HasText text
  seen : ∃ c ∈ text.toList, Text.isBlank c = false

/-- What a wrapper names under a key: by its parameter, or by its sidecar if the parameter names
nothing. -/
def Span.Names (span : Span) (key text : String) : Prop :=
  (span.param key).Names text ∨
    (∀ other, ¬(span.param key).Names other) ∧ (span.sidecar.get key).Names text

/-- The time that a wrapper names, by its parameters or else by its sidecar, is a number above zero
and finite. -/
def Span.HasUsableTime (span : Span) : Prop :=
  ∃ time, (span.param "time").asReal?.or (span.sidecar.get "time").asReal? = some time ∧
    ∃ significand exponent, time.shape = .finite false significand exponent ∧ significand ≠ 0

/-- What the arguments of a container command decide. -/
def Container.settings (container : Container) : Container :=
  { container with image := none, connector := none }

/-- A span and the way it changes the context of the spans inside it. -/
structure Wrapper where
  scope : Scope
  span : Span

namespace Wrapper

/-- A wrapper declares a variable with a value. Of the entries of one wrapper the last one for the
variable counts; a bound credential refers to the pipeline variable of the same name. -/
inductive Declares : Wrapper → String → String → Prop
  | env {span : Span} {name value : String}
      (last : Last (fun entry value => SetsVariable entry name value) span.overrideTexts value) :
      Declares ⟨.env, span⟩ name value
  | credentials {span : Span} {binding : Entries Json} {name : String}
      (member : binding ∈ span.bindings) (binds : BindsVariable binding name) :
      Declares ⟨.credentials, span⟩ name (Span.pipelineVariable name)

inductive NamesImage : Wrapper → String → Prop
  | container {span : Span} {image : String} (names : span.Names "image" image) :
      NamesImage ⟨.dockerContainer, span⟩ image

inductive NamesConnector : Wrapper → String → Prop
  | registry {span : Span} {connector : String}
      (names : (span.params.find "credentialsId").Names connector) :
      NamesConnector ⟨.dockerRegistry, span⟩ connector

inductive LimitsTime : Wrapper → String → Prop
  | timeout {span : Span} {limit : String} (usable : span.HasUsableTime)
      (spelled : span.timeout? = some limit) : LimitsTime ⟨.timeout, span⟩ limit

/-- The variables that the context takes over from a wrapper, in the order of its entries. -/
def pairs : Wrapper → List (String × String)
  | ⟨.env, span⟩ => span.overrideTexts.filterMap Span.override?
  | ⟨.credentials, span⟩ =>
    (span.bindings.flatMap Span.bindingVariables).map fun name =>
      (name, Span.pipelineVariable name)
  | _ => []

def value? (name : String) (wrapper : Wrapper) : Option String :=
  wrapper.pairs.reverse.lookup name

def timeLimit? : Wrapper → Option String
  | ⟨.timeout, span⟩ => span.timeout?
  | _ => none

def connector? : Wrapper → Option String
  | ⟨.dockerRegistry, span⟩ => (span.params.find "credentialsId").text?
  | _ => none

def image? : Wrapper → Option String
  | ⟨.dockerContainer, span⟩ => span.textOrSidecar "image"
  | _ => none

/-- The settings that a container wrapper asks for by its arguments; without any they are empty. -/
def settings? : Wrapper → Option Container
  | ⟨.dockerContainer, span⟩ =>
    some (Container.ofArguments ((span.textOrSidecar "args").getD "")).settings
  | _ => none

/-- What the innermost wrapper says that says anything. The outermost wrapper comes first. -/
def innermost? {α : Type} (say : Wrapper → Option α) (wrappers : List Wrapper) : Option α :=
  wrappers.reverse.findSome? say

private theorem innermost?_cons {α : Type} (say : Wrapper → Option α) (wrapper : Wrapper)
    (inner : List Wrapper) :
    innermost? say (wrapper :: inner) = (innermost? say inner).or (say wrapper) := by
  simp [innermost?, List.findSome?_append]

section

variable {α : Type} {say : Wrapper → Option α} {gives : Wrapper → α → Prop}
  (same : ∀ wrapper value, say wrapper = some value ↔ gives wrapper value)
  (wrappers : List Wrapper)

include same

theorem innermost?_eq_some_iff (value : α) :
    innermost? say wrappers = some value ↔ Last gives wrappers value :=
  last_iff_findSome? same wrappers value

theorem innermost?_eq_none_iff :
    innermost? say wrappers = none ↔ ∀ wrapper ∈ wrappers, ∀ value, ¬gives wrapper value := by
  unfold innermost?
  rw [List.findSome?_eq_none_iff]
  simp only [List.mem_reverse, Option.eq_none_iff_forall_ne_some, ne_eq, same]

end

end Wrapper

namespace Context

def enter (context : Context) (wrapper : Wrapper) : Context :=
  context.scoped wrapper.scope wrapper.span

/-- The context inside all of some wrappers, the outermost first. -/
def within (options : Options) (wrappers : List Wrapper) : Context :=
  wrappers.foldl enter (.root options)

end Context

/-! ## Variables -/

namespace Span

theorem override?_eq_some_iff {entry name value : String} :
    override? entry = some (name, value) ↔ SetsVariable entry name value := by
  unfold override? SetsVariable
  simp only [Text.hasCore_iff]
  constructor
  · intro set
    split at set
    case h_2 => cases set
    case h_1 key text cut =>
      obtain ⟨split, first⟩ := Text.splitOnce?_eq_some_iff.mp cut
      split at set
      · cases set
      · rename_i someName
        cases set
        refine ⟨key, by rw [split, String.toList_ofList], first, by rw [String.toList_ofList], ?_⟩
        rwa [String.toList_ofList, ← List.isEmpty_eq_false_iff, ← Bool.not_eq_true]
  · intro holds
    obtain ⟨key, split, first, trimmed, someName⟩ := holds
    have cut := Text.splitOnce?_eq_some_iff.mpr ⟨split, first⟩
    simp only [cut, trimmed, List.isEmpty_iff, someName, if_false, String.ofList_toList]

theorem mem_bindingVariables_iff {binding : Entries Json} {name : String} :
    name ∈ bindingVariables binding ↔ BindsVariable binding name := by
  unfold bindingVariables BindsVariable
  rw [List.mem_filterMap]
  apply exists_congr
  intro key
  apply and_congr_right
  intro _
  simp only [Text.hasCore_iff]
  constructor
  · intro found
    split at found
    case h_2 => cases found
    case h_1 text here =>
      split at found
      · cases found
      · rename_i someName
        cases found
        refine ⟨text, here, by rw [String.toList_ofList], ?_⟩
        rwa [String.toList_ofList, ← List.isEmpty_eq_false_iff, ← Bool.not_eq_true]
  · intro holds
    obtain ⟨text, here, trimmed, someName⟩ := holds
    simp only [here, trimmed, List.isEmpty_iff, someName, if_false, String.ofList_toList]

end Span

private theorem lookup_filterMap {α β : Type} (read : α → Option (String × β)) (name : String)
    (items : List α) :
    (items.filterMap read).lookup name =
      items.findSome? fun item => (read item).bind fun pair =>
        if pair.1 = name then some pair.2 else none := by
  induction items with
  | nil => rfl
  | cons item rest ih =>
      cases here : read item with
      | none => simpa [here] using ih
      | some pair =>
          obtain ⟨key, value⟩ := pair
          by_cases same : key = name
          · simp [here, same]
          · simpa [here, same, List.lookup_cons, beq_false_of_ne (Ne.symm same)] using ih

private theorem lookup_map_eq_some_iff {β : Type} (value : String → β) (name : String)
    (names : List String) (found : β) :
    (names.map fun name => (name, value name)).lookup name = some found ↔
      name ∈ names ∧ found = value name := by
  induction names with
  | nil => simp
  | cons first rest ih =>
      by_cases same : name = first
      · subst same
        simp [eq_comm]
      · simp [List.lookup_cons, beq_false_of_ne same, same, ih]

namespace Wrapper

theorem value?_eq_some_iff (wrapper : Wrapper) (name value : String) :
    wrapper.value? name = some value ↔ wrapper.Declares name value := by
  obtain ⟨scope, span⟩ := wrapper
  unfold value? pairs
  cases scope with
  | env =>
      have given (entry value : String) :
          ((Span.override? entry).bind fun pair =>
              if pair.1 = name then some pair.2 else none) = some value ↔
            SetsVariable entry name value := by
        rw [← Span.override?_eq_some_iff]
        cases Span.override? entry with
        | none => simp
        | some pair => simp [Prod.ext_iff]
      simp only
      rw [← List.filterMap_reverse, lookup_filterMap, last_iff_findSome? given]
      exact ⟨.env, fun | .env last => last⟩
  | credentials =>
      simp only
      rw [← List.map_reverse, lookup_map_eq_some_iff, List.mem_reverse, List.mem_flatMap]
      constructor
      · intro holds
        obtain ⟨⟨binding, member, found⟩, rfl⟩ := holds
        exact .credentials member (Span.mem_bindingVariables_iff.mp found)
      · intro holds
        obtain _ | ⟨member, binds⟩ := holds
        exact ⟨⟨_, member, Span.mem_bindingVariables_iff.mpr binds⟩, rfl⟩
  | dockerContainer => exact ⟨nofun, nofun⟩
  | dockerRegistry => exact ⟨nofun, nofun⟩
  | timeout => exact ⟨nofun, nofun⟩

/-- The name of a variable begins and ends with something to see. -/
theorem Declares.solid {wrapper : Wrapper} {name value : String}
    (declares : wrapper.Declares name value) : Text.Solid name.toList := by
  cases declares with
  | env last =>
      obtain ⟨_, _, _, -, ⟨_, -, -, _, _, -, -, -, solid⟩, -⟩ := last
      exact solid
  | credentials member binds =>
      obtain ⟨_, -, _, -, _, _, -, -, -, solid⟩ := binds
      exact solid

end Wrapper

/-! ## Time limits -/

namespace Binary64

theorem isPositiveFinite_iff (number : Binary64) : number.isPositiveFinite ↔
    ∃ significand exponent, number.shape = .finite false significand exponent ∧
      significand ≠ 0 := by
  unfold isPositiveFinite
  cases number.shape with
  | finite negative significand exponent => cases negative <;> simp
  | infinite negative => simp
  | nan => simp

end Binary64

theorem Span.timeout?_isSome_iff (span : Span) : span.timeout?.isSome ↔ span.HasUsableTime := by
  unfold timeout? HasUsableTime
  cases (span.param "time").asReal?.or (span.sidecar.get "time").asReal? with
  | none => simp
  | some time =>
      have shaped := Binary64.isPositiveFinite_iff time
      simpa [Duration.text?] using shaped

/-! ## Texts -/

theorem isBlankText_eq_false_iff {text : String} :
    isBlankText text = false ↔ ∃ c ∈ text.toList, Text.isBlank c = false := by
  simp [isBlankText, List.all_eq_false]

theorem Json.scalarText?_eq_some_iff {value : Json} {text : String} :
    Param.scalarText? (some value) = some text ↔ value.HasText text := by
  constructor
  · intro found
    cases value with
    | string text =>
        cases found
        exact .string _
    | number number =>
        cases found
        exact .number _
    | bool truth =>
        cases truth with
        | true => cases found; exact .true
        | false => cases found; exact .false
    | null | array items | object entries => cases found
  · intro shown
    cases shown <;> rfl

theorem Param.text?_eq_some_iff {param : Param} {text : String} :
    param.text? = some text ↔ param.Names text := by
  unfold text?
  rw [Option.bind_eq_some_iff]
  constructor
  · intro holds
    obtain ⟨found, scalar, kept⟩ := holds
    unfold someText? at kept
    split at kept
    · cases kept
    · rename_i seen
      cases kept
      refine ⟨?_, isBlankText_eq_false_iff.mp (Bool.not_eq_true _ ▸ seen)⟩
      cases param with
      | none => cases scalar
      | some value => exact ⟨value, rfl, Json.scalarText?_eq_some_iff.mp scalar⟩
  · intro names
    obtain ⟨⟨value, rfl, shown⟩, seen⟩ := names
    refine ⟨text, Json.scalarText?_eq_some_iff.mpr shown, ?_⟩
    rw [someText?, isBlankText_eq_false_iff.mpr seen]
    rfl

theorem Span.textOrSidecar_eq_some_iff {span : Span} {key text : String} :
    span.textOrSidecar key = some text ↔ span.Names key text := by
  unfold textOrSidecar Names
  rw [Option.or_eq_some_iff, Option.eq_none_iff_forall_ne_some]
  simp only [ne_eq, Param.text?_eq_some_iff]

namespace Wrapper

theorem image?_eq_some_iff (wrapper : Wrapper) (image : String) :
    wrapper.image? = some image ↔ wrapper.NamesImage image := by
  obtain ⟨scope, span⟩ := wrapper
  cases scope with
  | dockerContainer =>
      exact Span.textOrSidecar_eq_some_iff.trans ⟨.container, fun | .container names => names⟩
  | env | credentials | dockerRegistry | timeout => exact ⟨nofun, nofun⟩

theorem connector?_eq_some_iff (wrapper : Wrapper) (connector : String) :
    wrapper.connector? = some connector ↔ wrapper.NamesConnector connector := by
  obtain ⟨scope, span⟩ := wrapper
  cases scope with
  | dockerRegistry =>
      exact Param.text?_eq_some_iff.trans ⟨.registry, fun | .registry names => names⟩
  | env | credentials | dockerContainer | timeout => exact ⟨nofun, nofun⟩

theorem timeLimit?_eq_some_iff (wrapper : Wrapper) (limit : String) :
    wrapper.timeLimit? = some limit ↔ wrapper.LimitsTime limit := by
  obtain ⟨scope, span⟩ := wrapper
  cases scope with
  | timeout =>
      constructor
      · intro spelled
        have usable := span.timeout?_isSome_iff.mp (Option.isSome_of_eq_some spelled)
        exact .timeout usable spelled
      · intro limits
        obtain ⟨-, spelled⟩ := limits
        exact spelled
  | env | credentials | dockerContainer | dockerRegistry => exact ⟨nofun, nofun⟩

end Wrapper

/-! ## One wrapper -/

namespace Context

variable (context : Context) (wrapper : Wrapper)

private theorem get?_withEnvironment (added : List (String × String)) (name : String) :
    (context.withEnvironment (.ofPairs added)).environment.get? name =
      (added.reverse.lookup name).or (context.environment.get? name) := by
  rw [withEnvironment, Entries.get?_insertAll,
    Entries.lookup_reverse (Entries.sorted_ofPairs added), Entries.get?_ofPairs]

private theorem get?_environment_enter (name : String) :
    (context.enter wrapper).environment.get? name =
      (wrapper.value? name).or (context.environment.get? name) := by
  obtain ⟨scope, span⟩ := wrapper
  cases scope with
  | env => exact context.get?_withEnvironment _ name
  | credentials => exact context.get?_withEnvironment _ name
  | dockerContainer => rfl
  | dockerRegistry => rfl
  | timeout => rfl

private theorem sorted_environment_enter (sorted : context.environment.Sorted) :
    (context.enter wrapper).environment.Sorted := by
  obtain ⟨scope, span⟩ := wrapper
  cases scope with
  | env => exact Entries.sorted_insertAll sorted _
  | credentials => exact Entries.sorted_insertAll sorted _
  | dockerContainer => exact sorted
  | dockerRegistry => exact sorted
  | timeout => exact sorted

private theorem timeout_enter :
    (context.enter wrapper).timeout = wrapper.timeLimit?.or context.timeout := by
  obtain ⟨scope, span⟩ := wrapper
  cases scope <;> rfl

private theorem connector_enter :
    (context.enter wrapper).container.connector =
      wrapper.connector?.or context.container.connector := by
  obtain ⟨scope, span⟩ := wrapper
  cases scope <;> rfl

private theorem image_enter :
    (context.enter wrapper).container.image = wrapper.image?.or context.container.image := by
  obtain ⟨scope, span⟩ := wrapper
  cases scope <;> rfl

private theorem settings_enter :
    some (context.enter wrapper).container.settings =
      wrapper.settings?.or (some context.container.settings) := by
  obtain ⟨scope, span⟩ := wrapper
  cases scope <;> rfl

/-- Of the fields of a context a wrapper changes at most those of its own kind. -/
structure ChangesOwn (scope : Scope) (before after : Context) : Prop where
  environment : scope ≠ .env → scope ≠ .credentials → after.environment = before.environment
  timeout : scope ≠ .timeout → after.timeout = before.timeout
  connector : scope ≠ .dockerRegistry → after.container.connector = before.container.connector
  image : scope ≠ .dockerContainer → after.container.image = before.container.image
  settings : scope ≠ .dockerContainer → after.container.settings = before.container.settings

theorem changesOwn_scoped (scope : Scope) (span : Span) :
    ChangesOwn scope context (context.scoped scope span) := by
  cases scope with
  | env => exact ⟨by simp, fun _ => rfl, fun _ => rfl, fun _ => rfl, fun _ => rfl⟩
  | credentials => exact ⟨by simp, fun _ => rfl, fun _ => rfl, fun _ => rfl, fun _ => rfl⟩
  | dockerContainer => exact ⟨fun _ _ => rfl, fun _ => rfl, fun _ => rfl, by simp, by simp⟩
  | dockerRegistry => exact ⟨fun _ _ => rfl, fun _ => rfl, by simp, fun _ => rfl, fun _ => rfl⟩
  | timeout => exact ⟨fun _ _ => rfl, by simp, fun _ => rfl, fun _ => rfl, fun _ => rfl⟩

/-! ## All wrappers -/

/-- If each wrapper overrides a field by what it says, then the innermost one that says anything
decides. -/
theorem foldl_enter {α : Type} (field : Context → Option α) (say : Wrapper → Option α)
    (step : ∀ (context : Context) (wrapper : Wrapper),
      field (context.enter wrapper) = (say wrapper).or (field context))
    (wrappers : List Wrapper) :
    field (wrappers.foldl enter context) =
      (Wrapper.innermost? say wrappers).or (field context) := by
  induction wrappers generalizing context with
  | nil => rfl
  | cons wrapper inner ih =>
      rw [List.foldl_cons, ih, step, Wrapper.innermost?_cons, Option.or_assoc]

theorem sorted_environment_foldl (sorted : context.environment.Sorted)
    (wrappers : List Wrapper) : (wrappers.foldl enter context).environment.Sorted := by
  induction wrappers generalizing context with
  | nil => exact sorted
  | cons wrapper inner ih => exact ih _ (context.sorted_environment_enter wrapper sorted)

end Context

/-! ## Wrappers around a visit -/

namespace Span

/-- The context wrappers among spans. The innermost span comes first, the outermost wrapper. -/
def wrappersAmong (registry : Registry) (around : List Span) : List Wrapper :=
  around.reverse.filterMap fun span => (span.scope? registry).map fun scope => ⟨scope, span⟩

theorem contextWithin_eq_within (registry : Registry) (options : Options) (around : List Span) :
    contextWithin registry options around = .within options (wrappersAmong registry around) := by
  induction around with
  | nil => rfl
  | cons span rest ih =>
      have outer : contextWithin registry options (span :: rest) =
          span.contextInside registry (contextWithin registry options rest) := rfl
      rw [outer, ih, wrappersAmong, wrappersAmong, List.reverse_cons, List.filterMap_append,
        Context.within, Context.within, List.foldl_append, contextInside]
      cases own : span.scope? registry with
      | none => simp [own]
      | some scope => simp [own, Context.enter]

end Span

/-! ## Nearest wrappers -/

namespace Context

open Wrapper in
/-- Inside some wrappers each field comes from the innermost one that says something about it. -/
structure NearestWins (options : Options) (wrappers : List Wrapper) (context : Context) :
    Prop where
  /-- Each variable has one value, that of the innermost wrapper that declares it. -/
  once : context.environment.Sorted
  value : ∀ name value, (name, value) ∈ context.environment ↔
    Last (fun wrapper value => wrapper.Declares name value) wrappers value
  declared : ∀ name, (∃ value, (name, value) ∈ context.environment) ↔
    ∃ wrapper ∈ wrappers, ∃ value, wrapper.Declares name value
  named : ∀ entry ∈ context.environment, Text.Solid entry.1.toList
  timeout : ∀ limit, context.timeout = some limit ↔ Last LimitsTime wrappers limit
  connector : ∀ connector, context.container.connector = some connector ↔
    Last NamesConnector wrappers connector
  image : ∀ image, context.container.image = some image ↔ Last NamesImage wrappers image ∨
    (∀ wrapper ∈ wrappers, ∀ other, ¬wrapper.NamesImage other) ∧ options.defaultImage = some image
  /-- All other settings of the container come from one wrapper. -/
  settings : let asked := (innermost? settings? wrappers).getD {}
    context.container.args = asked.args ∧ context.container.entrypoint = asked.entrypoint ∧
      context.container.network = asked.network ∧ context.container.privileged = asked.privileged

private theorem settings_within (options : Options) (wrappers : List Wrapper) :
    (within options wrappers).container.settings =
      (Wrapper.innermost? Wrapper.settings? wrappers).getD {} := by
  have found := foldl_enter (.root options) (fun context => some context.container.settings)
    Wrapper.settings? settings_enter wrappers
  rw [Option.or_some] at found
  exact Option.some.inj found

theorem nearestWins_within (options : Options) (wrappers : List Wrapper) :
    NearestWins options wrappers (within options wrappers) := by
  have sorted : (within options wrappers).environment.Sorted :=
    sorted_environment_foldl (.root options) List.Pairwise.nil wrappers
  have found (name : String) : (within options wrappers).environment.get? name =
      Wrapper.innermost? (Wrapper.value? name) wrappers := by
    have whole := foldl_enter (.root options) (fun context => context.environment.get? name)
      (Wrapper.value? name) (fun context wrapper => get?_environment_enter context wrapper name)
      wrappers
    exact whole.trans Option.or_none
  have limited : (within options wrappers).timeout =
      Wrapper.innermost? Wrapper.timeLimit? wrappers :=
    (foldl_enter _ timeout Wrapper.timeLimit? timeout_enter wrappers).trans Option.or_none
  have connected : (within options wrappers).container.connector =
      Wrapper.innermost? Wrapper.connector? wrappers :=
    (foldl_enter _ (·.container.connector) Wrapper.connector? connector_enter wrappers).trans
      Option.or_none
  have depicted : (within options wrappers).container.image =
      (Wrapper.innermost? Wrapper.image? wrappers).or options.defaultImage :=
    foldl_enter _ (·.container.image) Wrapper.image? image_enter wrappers
  have declares (name : String) := fun wrapper : Wrapper => wrapper.value?_eq_some_iff name
  have value (name value : String) : (name, value) ∈ (within options wrappers).environment ↔
      Last (fun wrapper value => Wrapper.Declares wrapper name value) wrappers value := by
    rw [← Entries.get?_eq_some_iff sorted, found]
    exact Wrapper.innermost?_eq_some_iff (declares name) wrappers value
  have declared (name : String) :
      (∃ value, (name, value) ∈ (within options wrappers).environment) ↔
        ∃ wrapper ∈ wrappers, ∃ value, Wrapper.Declares wrapper name value := by
    have silent := not_congr (Wrapper.innermost?_eq_none_iff (declares name) wrappers)
    simp only [← Entries.get?_eq_some_iff sorted, found, ← Option.ne_none_iff_exists']
    simpa using silent
  constructor
  case once => exact sorted
  case value => exact value
  case declared => exact declared
  case named =>
    intro entry member
    obtain ⟨wrapper, -, _, declares⟩ := (declared entry.1).mp ⟨entry.2, member⟩
    exact declares.solid
  case timeout =>
    intro limit
    rw [limited]
    exact Wrapper.innermost?_eq_some_iff Wrapper.timeLimit?_eq_some_iff wrappers limit
  case connector =>
    intro connector
    rw [connected]
    exact Wrapper.innermost?_eq_some_iff Wrapper.connector?_eq_some_iff wrappers connector
  case image =>
    intro image
    rw [depicted, Option.or_eq_some_iff,
      Wrapper.innermost?_eq_some_iff Wrapper.image?_eq_some_iff wrappers image,
      Wrapper.innermost?_eq_none_iff Wrapper.image?_eq_some_iff wrappers]
  case settings =>
    rw [← settings_within]
    exact ⟨rfl, rfl, rfl, rfl⟩

/-- Whatever the wrappers are, the nearest one wins, field by field; and the context of every visit
is made by the wrappers around it. -/
theorem within_nearestWins (options : Options) :
    (∀ wrappers, NearestWins options wrappers (within options wrappers)) ∧
      (∀ span : Span, span.timeout?.isSome ↔ span.HasUsableTime) ∧
      (∀ (scope : Scope) (span : Span) (context : Context),
        ChangesOwn scope context (context.scoped scope span)) ∧
      ∀ (registry : Registry) (visit : Visit),
        visit.context registry options =
          within options (Span.wrappersAmong registry visit.around) :=
  ⟨nearestWins_within options, Span.timeout?_isSome_iff,
    fun scope span context => context.changesOwn_scoped scope span,
    fun registry visit => Span.contextWithin_eq_within registry options visit.around⟩

/-- A wrapper with some parameters. -/
def wrapperWith (scope : Scope) (parameters : Entries Json) : Wrapper where
  scope := scope
  span := {
    typeName := "wrapper"
    spanId := "aaaaaa01"
    traceId := "t"
    parentSpanId := ""
    parent := ""
    name := "wrapper"
    spanName := ""
    attributes := [("step.id", "1")]
    parameters := parameters
    children := [] }

/-- Wrappers of all kinds. Some of them leave out what others say. -/
def nestedWrappers : List Wrapper := [
  wrapperWith .env [("overrides", .array [.string "B=2", .string " A =3=x", .string "broken"])],
  wrapperWith .dockerRegistry [("credentialsId", .string "hub")],
  wrapperWith .dockerContainer [("args", .string "--privileged"), ("image", .string "maven:3")],
  wrapperWith .timeout [("time", .number (.integer 5))],
  wrapperWith .credentials [("bindings", .object [("variable", .string " B ")])],
  wrapperWith .dockerContainer [("args", .string "--network=host"), ("image", .string " ")],
  wrapperWith .timeout [("time", .number (.integer 0))],
  wrapperWith .env [("overrides", .array [.string "C=1", .string "=5", .string "C= 2"])]]

/-- Inside them each field has its nearest value. -/
theorem within_nearestWins_nested :
    within {} nestedWrappers = {
      environment := [("A", "3=x"), ("B", "<+pipeline.variables.B>"), ("C", " 2")]
      container := { image := some "maven:3", connector := some "hub", network := some "host" }
      timeout := some "5m" } ∧
    Last (fun wrapper value => wrapper.Declares "A" value) nestedWrappers "3=x" ∧
      Last (fun wrapper value => wrapper.Declares "B" value) nestedWrappers
        "<+pipeline.variables.B>" ∧
      Last Wrapper.NamesConnector nestedWrappers "hub" ∧
      Last Wrapper.LimitsTime nestedWrappers "5m" := by
  have whole : within {} nestedWrappers = {
      environment := [("A", "3=x"), ("B", "<+pipeline.variables.B>"), ("C", " 2")]
      container := { image := some "maven:3", connector := some "hub", network := some "host" }
      timeout := some "5m" } := by
    decide +kernel
  have nearest := (within_nearestWins {}).1 nestedWrappers
  rw [whole] at nearest
  exact ⟨whole, (nearest.value "A" _).mp (by simp), (nearest.value "B" _).mp (by simp),
    (nearest.connector _).mp rfl, (nearest.timeout _).mp rfl⟩

end Context

end TracePipeline
