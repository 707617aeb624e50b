import TracePipeline.Container
import TracePipeline.Proofs.ReadingOrder
import TracePipeline.Proofs.Trimming

/-! How the arguments of a container command are used. Each token is passed on, or sets a flag,
alone or together with the token behind it; only a flag at the very end that waits for a value is
lost. The settings that were read can be written in one form, from which they are read again. -/

set_option autoImplicit false

namespace TracePipeline

namespace Text

/-- A token: some characters, none of them blank. -/
def Unbroken (token : List Char) : Prop :=
  token ≠ [] ∧ ∀ c ∈ token, isBlank c = false

private theorem unbroken_of_all {token : List Char} (some : token ≠ [])
    (each : token.all fun c => !isBlank c) : Unbroken token :=
  ⟨some, by simpa using each⟩

private theorem unbroken_of_mem_words {text token : List Char} (member : token ∈ words text) :
    Unbroken token := by
  obtain ⟨piece, some⟩ := List.mem_filter.mp member
  refine ⟨by simpa using some, fun c inside => ?_⟩
  have flat : c ∈ (splitBy isBlank text).flatten := List.mem_flatten.mpr ⟨token, piece, inside⟩
  rw [flatten_splitBy, List.mem_filter, Bool.not_eq_true'] at flat
  exact flat.2

/-- Tokens with single spaces between them are cut apart again. -/
theorem words_intercalate {tokens : List (List Char)}
    (unbroken : ∀ token ∈ tokens, Unbroken token) :
    words ([' '].intercalate tokens) = tokens := by
  induction tokens with
  | nil => rfl
  | cons token rest ih =>
      obtain ⟨someToken, clean⟩ := unbroken token (.head _)
      have others := ih fun other member => unbroken other (.tail _ member)
      have kept : [token].filter (fun piece => !piece.isEmpty) = [token] := by simp [someToken]
      cases rest with
      | nil => rw [List.intercalate_singleton, words, splitBy_of_notCut clean, kept]
      | cons next rest =>
          rw [List.intercalate_cons_cons, List.append_assoc, List.singleton_append, words,
            splitBy_append_cut (by decide), splitBy_of_notCut clean, List.filter_append, kept,
            ← words, others]
          rfl

end Text

namespace Container

open Text (Unbroken words)

/-! ## Uses of tokens -/

/-- The spellings of a flag. -/
def Flag.names : Flag → List (List Char)
  | .privileged => ["--privileged".toList]
  | .network => ["--network".toList, "--net".toList]
  | .entrypoint => ["--entrypoint".toList]

/-- One use of one or two tokens. -/
inductive Use where
  | passed (token : List Char)
  /-- A flag in one token, with the value behind its equals sign, if there is one. -/
  | attached (flag : Flag) (name : List Char) (value : Option (List Char))
  /-- A flag that takes the next token as its value. -/
  | followed (flag : Flag) (name value : List Char)

namespace Use

def tokens : Use → List (List Char)
  | passed token => [token]
  | attached _ name none => [name]
  | attached _ name (some value) => [name ++ '=' :: value]
  | followed _ name value => [name, value]

/-- A token is passed on if it is no flag, with or without a value. The flag for privileges needs no
value and never takes the next token; the others need one. -/
def Valid : Use → Prop
  | passed token =>
    ∀ (flag : Flag), ∀ name ∈ flag.names, token ≠ name ∧ ∀ value, token ≠ name ++ '=' :: value
  | attached flag name value => name ∈ flag.names ∧ (value = none → flag = .privileged)
  | followed flag name _ => name ∈ flag.names ∧ flag ≠ .privileged

def passed? : Use → Option String
  | passed token => some (String.ofList token)
  | _ => none

/-- The value a use sets a flag to. -/
def value? (flag : Flag) : Use → Option (Option String)
  | attached own _ value => if own = flag then some (value.map String.ofList) else none
  | followed own _ value => if own = flag then some (some (String.ofList value)) else none
  | passed _ => none

end Use

/-- The value of the last use that sets a flag. -/
def lastValue? (flag : Flag) (uses : List Use) : Option (Option String) :=
  (uses.filterMap (Use.value? flag)).getLast?

/-- The settings that uses ask for: the tokens that were passed on in their order, and each flag as
it was set last. -/
def ofUses (uses : List Use) : Container where
  args := uses.filterMap Use.passed?
  privileged := (lastValue? .privileged uses).any (· != some "false")
  network := (lastValue? .network uses).join
  entrypoint := (lastValue? .entrypoint uses).join

/-- Each token is used exactly once, and the settings are those the uses ask for. -/
def Accounts (tokens : List (List Char)) (container : Container) : Prop :=
  ∃ uses : List Use, (∀ use ∈ uses, use.Valid) ∧ uses.flatMap Use.tokens = tokens ∧
    container = ofUses uses

/-- The last token is a flag that needs a value and has none. -/
def Dangling (flag : Flag) (uses : List Use) (tokens : List (List Char)) : Prop :=
  (∀ use ∈ uses, use.Valid) ∧ flag ≠ .privileged ∧
    ∃ name ∈ flag.names, uses.flatMap Use.tokens ++ [name] = tokens

/-! ## One token -/

theorem flag?_eq_some_iff {name : List Char} {flag : Flag} :
    flag? name = some flag ↔ name ∈ flag.names := by
  have spelled {text : String} (same : String.ofList name = text) : name = text.toList := by
    rw [← same, String.toList_ofList]
  constructor
  case mp =>
    intro found
    unfold flag? at found
    simp only [Bool.or_eq_true, decide_eq_true_eq] at found
    split at found
    · cases found
      simp [Flag.names, spelled ‹_›]
    split at found
    case isTrue either =>
      cases found
      rcases either with same | same <;> simp [Flag.names, spelled same]
    split at found
    · cases found
      simp [Flag.names, spelled ‹_›]
    · cases found
  case mpr =>
    intro member
    cases flag with
    | privileged | entrypoint =>
        rw [List.mem_singleton.mp member]
        decide
    | network =>
        rcases List.mem_pair.mp member with rfl | rfl <;> decide

/-- A flag is a long one and holds no equals sign. -/
theorem Flag.names_long {flag : Flag} {name : List Char} (member : name ∈ flag.names) :
    Text.startsWith ['-', '-'] name ∧ '=' ∉ name ∧ Unbroken name := by
  cases flag with
  | privileged | entrypoint =>
      rw [List.mem_singleton.mp member]
      exact ⟨by decide, by decide, Text.unbroken_of_all nofun (by decide)⟩
  | network =>
      rcases List.mem_pair.mp member with rfl | rfl
      · exact ⟨by decide, by decide, Text.unbroken_of_all nofun (by decide)⟩
      · exact ⟨by decide, by decide, Text.unbroken_of_all nofun (by decide)⟩

theorem splitFlag_name {flag : Flag} {name : List Char} (member : name ∈ flag.names) :
    splitFlag name = (name, none) := by
  have noMark := (Flag.names_long member).2.1
  rw [splitFlag, Text.splitOnce?_eq_none_iff.mpr noMark]

theorem splitFlag_value {flag : Flag} {name : List Char} (member : name ∈ flag.names)
    (value : List Char) : splitFlag (name ++ '=' :: value) = (name, some value) := by
  obtain ⟨long, noMark, -⟩ := Flag.names_long member
  have split : Text.splitOnce? '=' (name ++ '=' :: value) = some (name, value) :=
    Text.splitOnce?_eq_some_iff.mpr ⟨rfl, noMark⟩
  simp only [splitFlag, split, long, if_true]

theorem splitFlag_cases (token : List Char) :
    splitFlag token = (token, none) ∨
      ∃ name value, splitFlag token = (name, some value) ∧ token = name ++ '=' :: value := by
  unfold splitFlag
  split
  case h_1 name value split =>
    obtain ⟨shape, -⟩ := Text.splitOnce?_eq_some_iff.mp split
    by_cases long : Text.startsWith ['-', '-'] name
    · exact .inr ⟨name, value, by rw [if_pos long], shape⟩
    · exact .inl (by rw [if_neg long])
  case h_2 => exact .inl rfl

theorem Use.valid_passed_iff {token : List Char} :
    (passed token).Valid ↔ flag? (splitFlag token).1 = none := by
  constructor
  case mp =>
    intro other
    cases found : flag? (splitFlag token).1 with
    | none => rfl
    | some flag =>
        have member := flag?_eq_some_iff.mp found
        rcases splitFlag_cases token with alone | ⟨name, value, split, shape⟩
        · rw [alone] at member
          exact absurd rfl (other flag token member).1
        · rw [split] at member
          exact absurd shape ((other flag name member).2 value)
  case mpr =>
    intro unknown flag name member
    have known : flag? name = some flag := flag?_eq_some_iff.mpr member
    constructor
    · rintro rfl
      rw [splitFlag_name member, known] at unknown
      cases unknown
    · rintro value rfl
      rw [splitFlag_value member, known] at unknown
      cases unknown

/-- A token is passed on, or is a flag that is complete, or one that waits for a value. -/
theorem token_cases (token : List Char) :
    (∃ use : Use, use.Valid ∧ use.tokens = [token]) ∨
      ∃ flag : Flag, flag ≠ .privileged ∧ token ∈ flag.names := by
  cases found : flag? (splitFlag token).1 with
  | none => exact .inl ⟨.passed token, Use.valid_passed_iff.mpr found, rfl⟩
  | some flag =>
      have member := flag?_eq_some_iff.mp found
      rcases splitFlag_cases token with alone | ⟨name, value, split, shape⟩
      · rw [alone] at member
        by_cases privileged : flag = .privileged
        · exact .inl ⟨.attached flag token none, ⟨member, fun _ => privileged⟩, rfl⟩
        · exact .inr ⟨flag, privileged, member⟩
      · rw [split] at member
        exact .inl ⟨.attached flag name (some value), ⟨member, nofun⟩,
          congrArg (· :: []) shape.symm⟩

/-- All tokens are used, but for a flag at the end that waits for a value. -/
theorem exists_uses (tokens : List (List Char)) :
    ∃ uses : List Use, (∀ use ∈ uses, use.Valid) ∧
      (uses.flatMap Use.tokens = tokens ∨ ∃ flag, Dangling flag uses tokens) := by
  -- A flag may take the token behind it, so the induction has to reach past that one.
  induction tokens using List.twoStepInduction with
  | nil => exact ⟨[], by simp, .inl rfl⟩
  | singleton token =>
      rcases token_cases token with ⟨use, valid, one⟩ | ⟨flag, waits, member⟩
      · exact ⟨[use], by simpa using valid, .inl (by simpa using one)⟩
      · exact ⟨[], by simp, .inr ⟨flag, by simp, waits, token, member, rfl⟩⟩
  | cons_cons token next rest pair single =>
      have longer {use : Use} {uses : List Use} {taken left : List (List Char)}
          (valid : use.Valid) (own : use.tokens = taken) (each : ∀ use ∈ uses, use.Valid)
          (whole : uses.flatMap Use.tokens = left ∨ ∃ flag, Dangling flag uses left) :
          ∃ uses : List Use, (∀ use ∈ uses, use.Valid) ∧
            (uses.flatMap Use.tokens = taken ++ left ∨
              ∃ flag, Dangling flag uses (taken ++ left)) := by
        have all : ∀ other ∈ use :: uses, other.Valid := List.forall_mem_cons.mpr ⟨valid, each⟩
        refine ⟨use :: uses, all, whole.imp ?_ ?_⟩
        · rintro rfl
          rw [List.flatMap_cons, own]
        · rintro ⟨flag, -, waits, name, member, rfl⟩
          refine ⟨flag, all, waits, name, member, ?_⟩
          rw [List.flatMap_cons, own, List.append_assoc]
      rcases token_cases token with ⟨use, valid, one⟩ | ⟨flag, waits, member⟩
      · obtain ⟨uses, each, whole⟩ := single next
        exact longer valid one each whole
      · obtain ⟨uses, each, whole⟩ := pair
        exact @longer (.followed flag token next) _ _ _ ⟨member, waits⟩ rfl each whole

/-! ## Reading uses -/

/-- The settings after one more use. -/
def Use.apply (container : Container) : Use → Container
  | passed token => { container with args := container.args ++ [String.ofList token] }
  | attached flag _ value => container.setFlag flag (value.map String.ofList)
  | followed flag _ value => container.setFlag flag (some (String.ofList value))

private theorem readTokens_use {use : Use} (valid : use.Valid) (container : Container)
    (rest : List (List Char)) :
    readTokens container (use.tokens ++ rest) = readTokens (use.apply container) rest := by
  cases use with
  | passed token =>
      have unknown := Use.valid_passed_iff.mp valid
      simp only [Use.tokens, List.singleton_append, readTokens, unknown, Use.apply]
  | attached flag name value =>
      obtain ⟨member, alone⟩ := valid
      have known : flag? name = some flag := flag?_eq_some_iff.mpr member
      cases value with
      | none =>
          simp only [Use.tokens, List.singleton_append, readTokens, splitFlag_name member, known,
            alone rfl, decide_true, Bool.true_or, if_true, Use.apply]
      | some value =>
          simp only [Use.tokens, List.singleton_append, readTokens, splitFlag_value member, known,
            Option.isSome_some, Bool.or_true, if_true, Use.apply]
  | followed flag name value =>
      obtain ⟨member, waits⟩ := valid
      have known : flag? name = some flag := flag?_eq_some_iff.mpr member
      simp [Use.tokens, readTokens, splitFlag_name member, known, waits, Use.apply]

theorem readTokens_uses {uses : List Use} (valid : ∀ use ∈ uses, use.Valid)
    (container : Container) (rest : List (List Char)) :
    readTokens container (uses.flatMap Use.tokens ++ rest) =
      readTokens (uses.foldl Use.apply container) rest := by
  induction uses generalizing container with
  | nil => rfl
  | cons use uses ih =>
      rw [List.flatMap_cons, List.append_assoc, readTokens_use (valid use (.head _)),
        ih fun other member => valid other (.tail _ member)]
      rfl

/-- A flag that waits for a value in vain loses the one it had. -/
theorem readTokens_waiting {flag : Flag} {name : List Char} (waits : flag ≠ .privileged)
    (member : name ∈ flag.names) (container : Container) :
    readTokens container [name] = container.setFlag flag none := by
  have known : flag? name = some flag := flag?_eq_some_iff.mpr member
  simp [readTokens, splitFlag_name member, known, waits]

private theorem ofUses_append_singleton (uses : List Use) (use : Use) :
    ofUses (uses ++ [use]) = use.apply (ofUses uses) := by
  cases use with
  | passed token => simp [ofUses, lastValue?, Use.value?, Use.passed?, Use.apply]
  | attached flag name value =>
      cases flag <;> simp [ofUses, lastValue?, Use.value?, Use.passed?, Use.apply, setFlag]
  | followed flag name value =>
      cases flag <;> simp [ofUses, lastValue?, Use.value?, Use.passed?, Use.apply, setFlag]

theorem foldl_apply (uses : List Use) : uses.foldl Use.apply {} = ofUses uses := by
  induction uses using List.reverseRecOn with
  | nil => rfl
  | append_singleton uses use ih =>
      rw [List.foldl_append, ih, ofUses_append_singleton]
      rfl

theorem readTokens_eq_ofUses {uses : List Use} (valid : ∀ use ∈ uses, use.Valid) :
    readTokens {} (uses.flatMap Use.tokens) = ofUses uses := by
  have read := readTokens_uses valid {} []
  rwa [List.append_nil, foldl_apply] at read

theorem Dangling.readTokens_eq {flag : Flag} {uses : List Use} {tokens : List (List Char)}
    (dangling : Dangling flag uses tokens) (container : Container) :
    readTokens container tokens = (uses.foldl Use.apply container).setFlag flag none := by
  obtain ⟨valid, waits, name, member, rfl⟩ := dangling
  rw [readTokens_uses valid, readTokens_waiting waits member]

/-! ## No token is used twice -/

/-- A container with a value for each flag that needs one. -/
structure Valued (container : Container) : Prop where
  network : container.network.isSome
  entrypoint : container.entrypoint.isSome

private theorem Use.valued_apply {use : Use} (valid : use.Valid) {container : Container}
    (valued : container.Valued) : (use.apply container).Valued := by
  obtain ⟨network, entrypoint⟩ := valued
  cases use with
  | passed token => exact ⟨network, entrypoint⟩
  | attached flag name value =>
      obtain ⟨-, alone⟩ := valid
      cases flag with
      | privileged => exact ⟨network, entrypoint⟩
      | network =>
          cases value with
          | none => cases alone rfl
          | some value => exact ⟨rfl, entrypoint⟩
      | entrypoint =>
          cases value with
          | none => cases alone rfl
          | some value => exact ⟨network, rfl⟩
  | followed flag name value =>
      cases flag with
      | privileged => exact ⟨network, entrypoint⟩
      | network => exact ⟨rfl, entrypoint⟩
      | entrypoint => exact ⟨network, rfl⟩

private theorem valued_foldl {uses : List Use} (valid : ∀ use ∈ uses, use.Valid)
    {container : Container}
    (valued : container.Valued) : (uses.foldl Use.apply container).Valued := by
  induction uses generalizing container with
  | nil => exact valued
  | cons use uses ih =>
      exact ih (fun other member => valid other (.tail _ member))
        (Use.valued_apply (valid use (.head _)) valued)

/-- Uses never take a value away and a dangling flag does, so tokens that are all used have no
dangling flag. -/
theorem not_dangling_of_uses {uses uses' : List Use} {flag : Flag} {tokens : List (List Char)}
    (valid : ∀ use ∈ uses, use.Valid) (whole : uses.flatMap Use.tokens = tokens) :
    ¬Dangling flag uses' tokens := by
  intro dangling
  let full : Container := { network := some "", entrypoint := some "" }
  have read : readTokens full tokens = uses.foldl Use.apply full := by
    rw [← whole, ← List.append_nil (uses.flatMap Use.tokens), readTokens_uses valid]
    rfl
  have valued : (uses.foldl Use.apply full).Valued := valued_foldl valid ⟨rfl, rfl⟩
  rw [← read, dangling.readTokens_eq] at valued
  obtain ⟨network, entrypoint⟩ := valued
  cases flag with
  | privileged => exact dangling.2.1 rfl
  | network => cases network
  | entrypoint => cases entrypoint

/-! ## One form of the settings -/

/-- The arguments that ask for the settings of a container: its flags in a fixed order and in one
spelling, then the tokens that are passed on. -/
def render (container : Container) : String :=
  joinTexts " " ((if container.privileged then ["--privileged"] else []) ++
    (container.network.map ("--network=" ++ ·)).toList ++
    (container.entrypoint.map ("--entrypoint=" ++ ·)).toList ++ container.args)

/-- The uses of the tokens that are written for a container. -/
def renderUses (container : Container) : List Use :=
  (if container.privileged then [.attached .privileged "--privileged".toList none] else []) ++
    (container.network.map fun value =>
      .attached .network "--network".toList (some value.toList)).toList ++
    (container.entrypoint.map fun value =>
      .attached .entrypoint "--entrypoint".toList (some value.toList)).toList ++
    container.args.map fun arg => .passed arg.toList

/-- Settings that arguments can ask for. -/
structure Proper (container : Container) : Prop where
  image : container.image = none
  connector : container.connector = none
  network : ∀ value ∈ container.network, ∀ c ∈ value.toList, Text.isBlank c = false
  entrypoint : ∀ value ∈ container.entrypoint, ∀ c ∈ value.toList, Text.isBlank c = false
  args : ∀ arg ∈ container.args, (Use.passed arg.toList).Valid ∧ Unbroken arg.toList

theorem Proper.setFlag {container : Container} (proper : container.Proper) (flag : Flag)
    {value : Option String} (clean : ∀ text ∈ value, ∀ c ∈ text.toList, Text.isBlank c = false) :
    (container.setFlag flag value).Proper := by
  cases flag with
  | privileged => exact { proper with }
  | network => exact { proper with network := clean }
  | entrypoint => exact { proper with entrypoint := clean }

private theorem Use.proper_apply {use : Use} (valid : use.Valid)
    (unbroken : ∀ token ∈ use.tokens, Unbroken token) {container : Container}
    (proper : container.Proper) : (use.apply container).Proper := by
  cases use with
  | passed token =>
      have own : (Use.passed token).Valid ∧ Unbroken token := ⟨valid, unbroken token (.head _)⟩
      refine { proper with args := fun arg member => ?_ }
      rcases List.mem_append.mp member with old | new
      · exact proper.args arg old
      · rwa [List.mem_singleton.mp new, String.toList_ofList]
  | attached flag name value =>
      refine proper.setFlag flag fun text set => ?_
      cases value with
      | none => cases set
      | some value =>
          obtain rfl := Option.some.inj set
          have whole := (unbroken _ (.head _)).2
          intro c member
          rw [String.toList_ofList] at member
          exact whole c (by simp [member])
  | followed flag name value =>
      refine proper.setFlag flag fun text set => ?_
      obtain rfl := Option.some.inj set
      rw [String.toList_ofList]
      exact (unbroken value (.tail _ (.head _))).2

private theorem proper_foldl {uses : List Use} (valid : ∀ use ∈ uses, use.Valid)
    (unbroken : ∀ token ∈ uses.flatMap Use.tokens, Unbroken token) {container : Container}
    (proper : container.Proper) : (uses.foldl Use.apply container).Proper := by
  induction uses generalizing container with
  | nil => exact proper
  | cons use uses ih =>
      rw [List.flatMap_cons, List.forall_mem_append] at unbroken
      exact ih (fun other member => valid other (.tail _ member)) unbroken.2
        (Use.proper_apply (valid use (.head _)) unbroken.1 proper)

theorem proper_ofArguments (arguments : String) : (ofArguments arguments).Proper := by
  have unbroken : ∀ token ∈ words arguments.toList, Unbroken token :=
    fun _ member => Text.unbroken_of_mem_words member
  have nothing : Proper {} := ⟨rfl, rfl, nofun, nofun, nofun⟩
  obtain ⟨uses, valid, whole | ⟨flag, dangling⟩⟩ := exists_uses (words arguments.toList)
  · rw [ofArguments, ← whole, readTokens_eq_ofUses valid, ← foldl_apply]
    exact proper_foldl valid (whole ▸ unbroken) nothing
  · rw [ofArguments, dangling.readTokens_eq]
    obtain ⟨-, -, name, -, whole⟩ := dangling
    rw [← whole, List.forall_mem_append] at unbroken
    exact (proper_foldl valid unbroken.1 nothing).setFlag flag nofun

private theorem Proper.valid_renderUses {container : Container} (proper : container.Proper) :
    ∀ use ∈ container.renderUses, use.Valid := by
  intro use member
  simp only [renderUses, List.mem_append, Option.mem_toList, Option.map_eq_some_iff,
    List.mem_map] at member
  rcases member with ((privileged | ⟨value, -, rfl⟩) | ⟨value, -, rfl⟩) | ⟨arg, inside, rfl⟩
  · split at privileged
    · rw [List.mem_singleton.mp privileged]
      exact ⟨.head _, fun _ => rfl⟩
    · cases privileged
  · exact ⟨.head _, nofun⟩
  · exact ⟨.head _, nofun⟩
  · exact (proper.args arg inside).1

/-- The uses written for settings ask for these settings. -/
theorem Proper.ofUses_renderUses {container : Container} (proper : container.Proper) :
    ofUses container.renderUses = container := by
  obtain ⟨image, connector, entrypoint, args, privileged, network⟩ := container
  obtain ⟨rfl, rfl, -⟩ := proper
  have passedAll : (args.map fun arg => Use.passed arg.toList).filterMap Use.passed? = args := by
    simp [Function.comp_def, Use.passed?]
  have noValue (flag : Flag) :
      (args.map fun arg => Use.passed arg.toList).filterMap (Use.value? flag) = [] := by
    simp [Use.value?]
  cases privileged <;> cases network <;> cases entrypoint <;>
    simp [renderUses, ofUses, lastValue?, List.filterMap_cons, passedAll, noValue, Use.value?,
      Use.passed?]

private theorem unbroken_attached {name value : List Char} (unbroken : Unbroken name)
    (clean : ∀ c ∈ value, Text.isBlank c = false) : Unbroken (name ++ '=' :: value) := by
  refine ⟨by simp, fun c member => ?_⟩
  rcases List.mem_append.mp member with own | rest
  · exact unbroken.2 c own
  · rcases List.mem_cons.mp rest with rfl | inside
    · rfl
    · exact clean c inside

private theorem Proper.unbroken_renderUses {container : Container} (proper : container.Proper) :
    ∀ token ∈ container.renderUses.flatMap Use.tokens, Unbroken token := by
  intro token member
  have flags : ∀ flag : Flag, ∀ name ∈ flag.names, Unbroken name :=
    fun flag name member => (Flag.names_long member).2.2
  obtain ⟨use, inside, own⟩ := List.mem_flatMap.mp member
  simp only [renderUses, List.mem_append, Option.mem_toList, Option.map_eq_some_iff,
    List.mem_map] at inside
  rcases inside with ((privileged | ⟨value, set, rfl⟩) | ⟨value, set, rfl⟩) | ⟨arg, present, rfl⟩
  · split at privileged
    · rw [List.mem_singleton.mp privileged] at own
      rw [List.mem_singleton.mp own]
      exact flags .privileged _ (.head _)
    · cases privileged
  · rw [List.mem_singleton.mp own]
    exact unbroken_attached (flags .network _ (.head _)) (proper.network value set)
  · rw [List.mem_singleton.mp own]
    exact unbroken_attached (flags .entrypoint _ (.head _)) (proper.entrypoint value set)
  · rw [List.mem_singleton.mp own]
    exact (proper.args arg present).2

theorem toList_render (container : Container) :
    container.render.toList = [' '].intercalate (container.renderUses.flatMap Use.tokens) := by
  obtain ⟨image, connector, entrypoint, args, privileged, network⟩ := container
  have passedAll : (args.map fun arg => Use.passed arg.toList).flatMap Use.tokens =
      args.map String.toList := by
    rw [List.flatMap_map, List.map_eq_flatMap]
    rfl
  cases privileged <;> cases network <;> cases entrypoint <;>
    simp [render, renderUses, joinTexts, passedAll, Use.tokens]

theorem Proper.ofArguments_render {container : Container} (proper : container.Proper) :
    ofArguments container.render = container := by
  rw [ofArguments, toList_render, Text.words_intercalate proper.unbroken_renderUses,
    readTokens_eq_ofUses proper.valid_renderUses, proper.ofUses_renderUses]

/-! ## Arguments -/

/-- All tokens of the arguments are used as they should be, unless the last one is a flag that waits
for a value: that one is lost, with the value its flag had before. Whatever the arguments are, the
settings that were read are read again from their one form. -/
theorem accounts_iff (arguments : String) :
    (Accounts (words arguments.toList) (ofArguments arguments) ↔
        ∀ flag uses, ¬Dangling flag uses (words arguments.toList)) ∧
      (∀ flag uses, Dangling flag uses (words arguments.toList) →
        ofArguments arguments = (ofUses uses).setFlag flag none) ∧
      ofArguments (ofArguments arguments).render = ofArguments arguments := by
  refine ⟨⟨?_, ?_⟩, ?_, (proper_ofArguments arguments).ofArguments_render⟩
  case refine_1 =>
    rintro ⟨uses, valid, whole, -⟩ flag uses'
    exact not_dangling_of_uses valid whole
  case refine_2 =>
    intro complete
    obtain ⟨uses, valid, whole | ⟨flag, dangling⟩⟩ := exists_uses (words arguments.toList)
    · refine ⟨uses, valid, whole, ?_⟩
      rw [ofArguments, ← whole, readTokens_eq_ofUses valid]
    · exact absurd dangling (complete flag uses)
  case refine_3 =>
    intro flag uses dangling
    rw [ofArguments, dangling.readTokens_eq, foldl_apply]

/-- A flag at the end without a value is lost, and so is the value it had. -/
theorem not_accounts_danglingFlag :
    ¬Accounts (words "--network=host --network".toList)
      (ofArguments "--network=host --network") := by
  rintro ⟨uses, valid, whole, -⟩
  have inline : (Use.attached .network "--network".toList (some "host".toList)).Valid :=
    ⟨.head _, nofun⟩
  have tokens : words "--network=host --network".toList =
      ["--network=host".toList, "--network".toList] := by
    decide
  refine @not_dangling_of_uses uses [_] .network _ valid whole
    ⟨List.forall_mem_singleton.mpr inline, nofun, _, .head _, ?_⟩
  rw [tokens]
  rfl

end Container

end TracePipeline
