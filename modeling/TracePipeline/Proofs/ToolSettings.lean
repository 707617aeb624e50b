import TracePipeline.Proofs.Entries
import TracePipeline.Tool.Synthesis

/-! What a tool's step says about the installation. A setting that is blank would be left out, but
neither wrappers nor declarations name anything blank, so that all they name is there. -/

set_option autoImplicit false

namespace TracePipeline

/-! ## Texts -/

/-- Nothing, or a text that is more than blanks. -/
def NotBlank (text : Option String) : Prop :=
  ∀ value ∈ text, isBlankText value = false

private theorem NotBlank.or {first second : Option String} (one : NotBlank first)
    (other : NotBlank second) :
    NotBlank (first.or second) := by
  cases first with
  | none => exact other
  | some value => exact one

theorem Param.notBlank_text? (param : Param) : NotBlank param.text? := by
  intro value found
  obtain ⟨text, -, kept⟩ := Option.bind_eq_some_iff.mp found
  cases blank : isBlankText text with
  | true => simp [someText?, blank] at kept
  | false =>
      simp only [someText?, blank, Bool.false_eq_true, if_false, Option.some.injEq] at kept
      exact kept ▸ blank

namespace Declaration

/-- What a declaration says about the installation, it says with more than blanks. -/
structure Spoken (declared : Declaration) : Prop where
  name : NotBlank declared.name
  version : NotBlank declared.version

theorem spoken_of_ofName? {param : Param} {declared : Declaration}
    (found : param.text?.bind ofName? = some declared) : declared.Spoken := by
  obtain ⟨name, text, named⟩ := Option.bind_eq_some_iff.mp found
  obtain ⟨tool, -, rfl⟩ := Option.map_eq_some_iff.mp named
  exact ⟨text ▸ param.notBlank_text?, fun _ missing => nomatch missing⟩

private theorem spoken_of_ofEntries? {entries : Entries Json} {declared : Declaration}
    (found : ofEntries? entries = some declared) : declared.Spoken := by
  obtain ⟨tool, -, rfl⟩ := Option.map_eq_some_iff.mp found
  exact ⟨Param.notBlank_text? _, Param.notBlank_text? _⟩

mutual

private theorem spoken_of_mem_ofJson {declared : Declaration} :
    (value : Json) → declared ∈ ofJson value → declared.Spoken
  | .array items, member => spoken_of_mem_ofItems items (by rwa [ofJson] at member)
  | .object entries, member => spoken_of_ofEntries? (by simpa [ofJson] using member)
  | .null, member | .bool _, member | .number _, member | .string _, member =>
    spoken_of_ofName? (by simpa [ofJson] using member)

private theorem spoken_of_mem_ofItems {declared : Declaration} :
    (items : List Json) → declared ∈ ofItems items → declared.Spoken
  | [], member => by cases member
  | item :: items, member => by
      rw [ofItems, List.mem_append] at member
      rcases member with here | later
      · exact spoken_of_mem_ofJson item here
      · exact spoken_of_mem_ofItems items later

end

private theorem spoken_of_mem_ofParam {param : Param} {declared : Declaration}
    (member : declared ∈ ofParam param) : declared.Spoken := by
  cases param with
  | none => cases member
  | some value => exact spoken_of_mem_ofJson value member

end Declaration

theorem Span.spoken_of_mem_declarations {span : Span} {declared : Declaration}
    (member : declared ∈ span.declarations) : declared.Spoken := by
  unfold declarations at member
  rcases List.mem_append.mp member with sidecar | parameters
  · exact Declaration.spoken_of_mem_ofParam sidecar
  · split at parameters
    · exact Declaration.spoken_of_mem_ofParam parameters
    · cases parameters

theorem PendingTool.notBlank_ofWrapper (tool : Tool) (wrapper : Span) :
    NotBlank (ofWrapper tool wrapper).installation := by
  intro value found
  obtain ⟨key, -, text⟩ := List.exists_of_findSome?_eq_some found
  exact Param.notBlank_text? _ value text

/-! ## Settings -/

namespace Plugin

variable (plugin : Plugin) {key name : String}

theorem get?_withSetting_of_ne (other : name ≠ key) (value : Json) :
    (plugin.withSetting key value).settings.get? name = plugin.settings.get? name := by
  unfold withSetting
  split
  · rw [Entries.get?_insert, if_neg other]
  · rfl

theorem get?_withText_of_ne (other : name ≠ key) (value : String) :
    (plugin.withText key value).settings.get? name = plugin.settings.get? name :=
  plugin.get?_withSetting_of_ne other (.string value)

theorem get?_withText?_of_ne (other : name ≠ key) (value : Option String) :
    (plugin.withText? key value).settings.get? name = plugin.settings.get? name := by
  cases value with
  | none => rfl
  | some text => exact plugin.get?_withSetting_of_ne other (.string text)

theorem get?_withText?_self {value : Option String} (spoken : NotBlank value)
    (unset : plugin.settings.get? key = none) :
    (plugin.withText? key value).settings.get? key = value.map .string := by
  cases value with
  | none => exact unset
  | some text =>
      have kept : isSetting (.string text) := by rw [isSetting, spoken text rfl, Bool.not_false]
      change (plugin.withSetting key (.string text)).settings.get? key = _
      rw [withSetting, if_pos kept, Entries.get?_insert, if_pos rfl]
      rfl

end Plugin

/-! ## Tool steps -/

namespace Tool

private theorem argumentsKey_ne_installation (tool : Tool) :
    "installation" ≠ tool.argumentsKey := by
  cases tool <;> decide

private theorem argumentsKey_ne_version (tool : Tool) : "version" ≠ tool.argumentsKey := by
  cases tool <;> decide

end Tool

namespace PendingTool

variable (pending : PendingTool) (arguments : String) (context : Context)
  {declared : Option Declaration}

/-- The installation is the one that the wrapper names, or else the one that is declared. -/
theorem plugin_installation (named : NotBlank pending.installation)
    (spoken : ∀ declaration ∈ declared, declaration.Spoken) :
    (pending.plugin arguments context declared).settings.get? "installation" =
      (pending.installation.or (declared.bind Declaration.name)).map .string := by
  have fallback : NotBlank (declared.bind Declaration.name) := by
    intro value found
    obtain ⟨declaration, same, text⟩ := Option.bind_eq_some_iff.mp found
    exact (spoken declaration same).name value text
  change (Plugin.withText? (Plugin.withText? _ _ _) _ _).settings.get? "installation" = _
  rw [Plugin.get?_withText?_of_ne _ (by decide), Plugin.get?_withText?_of_ne _ (by decide)]
  apply Plugin.get?_withText?_self _ (named.or fallback)
  exact Plugin.get?_withText_of_ne _ pending.tool.argumentsKey_ne_installation arguments

theorem plugin_version (spoken : ∀ declaration ∈ declared, declaration.Spoken) :
    (pending.plugin arguments context declared).settings.get? "version" =
      (declared.bind Declaration.version).map .string := by
  have version : NotBlank (declared.bind Declaration.version) := by
    intro value found
    obtain ⟨declaration, same, text⟩ := Option.bind_eq_some_iff.mp found
    exact (spoken declaration same).version value text
  change (Plugin.withText? (Plugin.withText? _ _ _) _ _).settings.get? "version" = _
  rw [Plugin.get?_withText?_of_ne _ (by decide)]
  apply Plugin.get?_withText?_self _ version
  rw [Plugin.get?_withText?_of_ne _ (by decide)]
  exact Plugin.get?_withText_of_ne _ pending.tool.argumentsKey_ne_version arguments

end PendingTool

end TracePipeline
