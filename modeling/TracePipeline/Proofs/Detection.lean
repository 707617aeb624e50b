import TracePipeline.Proofs.JsonDecoding
import TracePipeline.Proofs.Occurrences
import TracePipeline.Proofs.WalkStep

/-! Which tools are detected in a span. Of all declarations in a sidecar only those at the first
place count; a tool that other places declare is missed unless it is declared there too. -/

set_option autoImplicit false

namespace TracePipeline

/-! ## What a value declares -/

/-- A value declares a tool: a text that names it, an object whose type, or else whose name, does,
or a list with such a value. -/
inductive Declares (tool : Tool) : Json → Prop
  | text {value : Json} {name : String} (named : Param.text? (some value) = some name)
      (known : Tool.ofName? name = some tool) : Declares tool value
  | type {entries : Entries Json} {name : String}
      (named : ((Param.ofEntries entries).get "type").text? = some name)
      (known : Tool.ofName? name = some tool) : Declares tool (.object entries)
  | name {entries : Entries Json} {name : String}
      (untyped : ((Param.ofEntries entries).get "type").text?.bind Tool.ofName? = none)
      (named : ((Param.ofEntries entries).get "name").text? = some name)
      (known : Tool.ofName? name = some tool) : Declares tool (.object entries)
  | item {items : List Json} {item : Json} (member : item ∈ items) (inside : Declares tool item) :
      Declares tool (.array items)

namespace Declaration

def Tells (declarations : List Declaration) (tool : Tool) : Prop :=
  ∃ declared ∈ declarations, declared.tool = tool

theorem tells_append {first second : List Declaration} {tool : Tool} :
    Tells (first ++ second) tool ↔ Tells first tool ∨ Tells second tool := by
  simp only [Tells, List.mem_append, or_and_right, exists_or]

theorem tells_toList {found : Option Declaration} {tool : Tool} :
    Tells found.toList tool ↔ found.map Declaration.tool = some tool := by
  simp [Tells]

theorem tells_text_iff {value : Json} {tool : Tool} :
    Tells ((Param.text? (some value)).bind ofName?).toList tool ↔
      ∃ name, Param.text? (some value) = some name ∧ Tool.ofName? name = some tool := by
  rw [tells_toList, Option.map_bind, Option.bind_eq_some_iff]
  simp [ofName?, Function.comp_def]

theorem tells_entries_iff {entries : Entries Json} {tool : Tool} :
    Tells (ofEntries? entries).toList tool ↔ Declares tool (.object entries) := by
  have same : (ofEntries? entries).map Declaration.tool =
      (((Param.ofEntries entries).get "type").text?.bind Tool.ofName?).or
        (((Param.ofEntries entries).get "name").text?.bind Tool.ofName?) := by
    simp [ofEntries?, Function.comp_def]
  rw [tells_toList, same, Option.or_eq_some_iff, Option.bind_eq_some_iff, Option.bind_eq_some_iff]
  constructor
  case mp =>
    intro told
    obtain ⟨name, named, known⟩ | ⟨untyped, name, named, known⟩ := told
    · exact .type named known
    · exact .name untyped named known
  case mpr =>
    intro declares
    cases declares with
    | text named => cases named
    | type named known => exact .inl ⟨_, named, known⟩
    | name untyped named known => exact .inr ⟨untyped, _, named, known⟩

private theorem ofItems_eq_flatMap (items : List Json) : ofItems items = items.flatMap ofJson := by
  induction items with
  | nil => rfl
  | cons item items ih => rw [ofItems, ih, List.flatMap_cons]

theorem declares_scalar_iff {value : Json} {tool : Tool} (noEntries : value.entries? = none)
    (noItems : Param.items (some value) = []) :
    Declares tool value ↔
      ∃ name, Param.text? (some value) = some name ∧ Tool.ofName? name = some tool := by
  constructor
  case mp =>
    intro declares
    cases declares with
    | text named known => exact ⟨_, named, known⟩
    | type | name => cases noEntries
    | item member =>
        cases noItems
        cases member
  case mpr =>
    intro told
    obtain ⟨name, named, known⟩ := told
    exact .text named known

theorem tells_ofJson_iff {value : Json} {tool : Tool} :
    Tells (ofJson value) tool ↔ Declares tool value := by
  induction value using Json.induct_inside with
  | null | bool | number | string =>
      rw [ofJson, tells_text_iff, declares_scalar_iff rfl rfl]
      all_goals simp
  | array items ih =>
      rw [ofJson, ofItems_eq_flatMap]
      constructor
      case mp =>
        intro told
        obtain ⟨declared, member, same⟩ := told
        obtain ⟨item, present, inside⟩ := List.mem_flatMap.mp member
        exact .item present ((ih item present).mp ⟨declared, inside, same⟩)
      case mpr =>
        intro declares
        cases declares with
        | text named => cases named
        | item present inside =>
            obtain ⟨declared, member, same⟩ := (ih _ present).mpr inside
            exact ⟨declared, List.mem_flatMap.mpr ⟨_, present, member⟩, same⟩
  | object entries => exact tells_entries_iff

theorem tells_ofParam_iff {param : Param} {tool : Tool} :
    Tells (ofParam param) tool ↔ ∃ value ∈ param, Declares tool value := by
  cases param with
  | none => simp [ofParam, Tells]
  | some value => simp [ofParam, tells_ofJson_iff]

end Declaration

namespace Declares

instance (tool : Tool) (value : Json) : Decidable (Declares tool value) :=
  decidable_of_iff (∃ declared ∈ Declaration.ofJson value, declared.tool = tool)
    Declaration.tells_ofJson_iff

private theorem isNull_eq_false {tool : Tool} {value : Json} (declares : Declares tool value) :
    value.isNull = false := by
  cases value with
  | null =>
      cases declares with
      | text named => cases named
  | _ => rfl

end Declares

/-! ## What a span declares -/

/-- A tool is declared somewhere under a `tool` key of a sidecar, at any depth. -/
def DeclaredWithin (entries : Entries Json) (tool : Tool) : Prop :=
  ∃ value, Json.Under "tool" value (.object entries) ∧ Declares tool value

theorem declaredWithin_iff {entries : Entries Json} {tool : Tool} :
    DeclaredWithin entries tool ↔
      ∃ value ∈ Json.under "tool" (.object entries), Declares tool value := by
  apply exists_congr
  intro value
  rw [Json.mem_under_iff]
  exact ⟨fun ⟨place, declares⟩ => ⟨⟨place, declares.isNull_eq_false⟩, declares⟩,
    fun ⟨⟨place, _⟩, declares⟩ => ⟨place, declares⟩⟩

instance (entries : Entries Json) (tool : Tool) : Decidable (DeclaredWithin entries tool) :=
  decidable_of_iff' _ declaredWithin_iff

namespace Span

/-- A tool is declared at the first place of a sidecar, or by the parameters of a `tool` step. -/
def DeclaresFirst (span : Span) (entries : Entries Json) (tool : Tool) : Prop :=
  (∃ first ∈ (Json.under "tool" (.object entries)).head?, Declares tool first) ∨
    span.stepType = "tool" ∧ Declares tool (.object span.parameters)

instance (span : Span) (entries : Entries Json) (tool : Tool) :
    Decidable (span.DeclaresFirst entries tool) :=
  inferInstanceAs (Decidable (_ ∨ _))

theorem tells_declarations_iff {span : Span} {entries : Entries Json}
    (present : span.sidecar = .present entries) {tool : Tool} :
    Declaration.Tells span.declarations tool ↔ span.DeclaresFirst entries tool := by
  have found : span.sidecar.root.find "tool" = (Json.under "tool" (.object entries)).head? := by
    rw [present, ← Json.findIn_eq_head?]
    rfl
  rw [declarations, Declaration.tells_append, found, Declaration.tells_ofParam_iff, DeclaresFirst]
  apply or_congr_right
  split
  case isTrue ofTool =>
    rw [Declaration.tells_ofParam_iff]
    simp [ofTool, params, Param.ofEntries]
  case isFalse other => simp [other, Declaration.Tells]

end Span

/-! ## What is detected -/

namespace WalkState

private theorem isSome_declaration?_foldl {state : WalkState} {declarations : List Declaration}
    {tool : Tool} :
    ((declarations.foldl declare state).declaration? tool).isSome ↔
      (state.declaration? tool).isSome ∨ Declaration.Tells declarations tool := by
  induction declarations generalizing state with
  | nil => simp [Declaration.Tells]
  | cons declared rest ih =>
      have one : Declaration.Tells [declared] tool ↔ declared.tool = tool := by
        simp [Declaration.Tells]
      rw [List.foldl_cons, ih, declaration?_declare, Option.isSome_or, Bool.or_eq_true, or_assoc,
        ← List.singleton_append, Declaration.tells_append, one]
      by_cases same : declared.tool = tool <;> simp [same]

end WalkState

namespace Span

theorem isSome_declaration?_declareAll {span : Span} {entries : Entries Json}
    (present : span.sidecar = .present entries) (state : WalkState) (tool : Tool) :
    ((state.declareAll span).declaration? tool).isSome ↔
      (state.declaration? tool).isSome ∨ span.DeclaresFirst entries tool := by
  rw [WalkState.declareAll, WalkState.isSome_declaration?_foldl, tells_declarations_iff present]

/-- After any state, the tools detected in a span are those that its first place declares. So all
tools that its sidecar declares are detected just if they are also declared there. -/
theorem detects_iff {span : Span} {entries : Entries Json}
    (present : span.sidecar = .present entries) :
    (∀ (state : WalkState) (tool : Tool), ((state.declareAll span).declaration? tool).isSome ↔
        (state.declaration? tool).isSome ∨ span.DeclaresFirst entries tool) ∧
      ((∀ (state : WalkState) (tool : Tool), DeclaredWithin entries tool →
          ((state.declareAll span).declaration? tool).isSome) ↔
        ∀ tool, DeclaredWithin entries tool → span.DeclaresFirst entries tool) := by
  have detected := isSome_declaration?_declareAll present
  refine ⟨detected, ?_⟩
  constructor
  case mp =>
    intro all tool within
    -- Nothing is known before the first span, so all that is known has been found there.
    obtain known | first := (detected {} tool).mp (all {} tool within)
    · cases known
    · exact first
  case mpr =>
    intro first state tool within
    exact (detected state tool).mpr (.inr (first tool within))

def withSidecar (entries : Entries Json) : Span :=
  { (default : Span) with
    typeName := "sh"
    attributes := [(sidecarKey, (Json.object entries).prettyText)] }

theorem sidecar_withSidecar {entries : Entries Json} (plain : (Json.object entries).Plain)
    (shallow : (Json.object entries).depth < Tree.levelLimit) :
    (withSidecar entries).sidecar = .present entries := by
  have solid : isBlankText (Json.object entries).prettyText = false := by
    have brace : '{' ∈ (Json.object entries).pretty 0 := by
      cases entries <;> exact .head _
    rw [isBlankText, Json.prettyText, String.toList_ofList, List.all_eq_false]
    exact ⟨'{', brace, by decide⟩
  obtain ⟨tree, parsed, shows⟩ := Json.ofText_prettyText plain.integral shallow
  have read : Json.read? (Json.object entries).prettyText = .ok (.object entries) := by
    rw [Json.read?, parsed, Document.read, Tree.reads_json plain tree shows]
    rfl
  have found : (withSidecar entries).sidecar = .read (some (Json.object entries).prettyText) := rfl
  rw [found, Sidecar.read, if_neg (by simp [solid]), Sidecar.ofText, read]

/-- Two tools in a list, and one of them again elsewhere. -/
def listedTools : Entries Json :=
  [("build", .object
      [("tool", .array [.string "maven-3.9", .object [("type", .string "gradle")]])]),
    ("deploy", .object [("tool", .string "mvn")])]

private theorem plain_listedTools : (Json.object listedTools).Plain := by
  have typed : (Json.object [("type", .string "gradle")]).Plain :=
    .object (by decide) (List.forall_mem_singleton.mpr (.string _))
  have both : (Json.array [.string "maven-3.9", .object [("type", .string "gradle")]]).Plain :=
    .array (List.forall_mem_cons.mpr ⟨.string _, List.forall_mem_singleton.mpr typed⟩)
  refine .object (by decide) (List.forall_mem_cons.mpr ⟨?_, List.forall_mem_singleton.mpr ?_⟩)
  · exact .object (by decide) (List.forall_mem_singleton.mpr both)
  · exact .object (by decide) (List.forall_mem_singleton.mpr (.string _))

theorem detects_listedTools :
    (withSidecar listedTools).sidecar = .present listedTools ∧
      ∀ (state : WalkState) (tool : Tool), DeclaredWithin listedTools tool →
        ((state.declareAll (withSidecar listedTools)).declaration? tool).isSome := by
  have present := sidecar_withSidecar plain_listedTools (by decide)
  refine ⟨present, (detects_iff present).2.mpr ?_⟩
  intro tool
  cases tool <;> decide +kernel

/-- A first place that names no tool, and another one that does. -/
def scatteredTools : Entries Json :=
  [("agent", .object [("tool", .string "jdk17")]),
    ("build", .object [("tool", .string "maven-3.9")])]

theorem not_detects_scatteredTools :
    ¬∀ (span : Span) (entries : Entries Json), span.sidecar = .present entries →
      ∀ (state : WalkState) (tool : Tool), DeclaredWithin entries tool →
        ((state.declareAll span).declaration? tool).isSome := by
  intro always
  have plain : (Json.object scatteredTools).Plain := by
    refine .object (by decide) ?_
    rw [scatteredTools, List.forall_mem_cons, List.forall_mem_singleton]
    exact ⟨.object (by decide) (List.forall_mem_singleton.mpr (.string _)),
      .object (by decide) (List.forall_mem_singleton.mpr (.string _))⟩
  have present := sidecar_withSidecar plain (by decide)
  have within : DeclaredWithin scatteredTools .maven := by decide +kernel
  have detected := always _ _ present {} .maven within
  obtain known | first := (isSome_declaration?_declareAll present {} .maven).mp detected
  · cases known
  · exact absurd first (by decide +kernel)

end Span

end TracePipeline
