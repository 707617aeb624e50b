import TracePipeline.Proofs.Hosts
import TracePipeline.Proofs.LogRecords
import TracePipeline.Proofs.Outcomes
import TracePipeline.Proofs.Trimming

/-! What a run of the command line does to the machine it is made on. It only reads until its
document is complete; then it reports what it has found, and leaves the document in one place. -/

set_option autoImplicit false

namespace TracePipeline.CommandLine

open MachineView

/-! ## What a job asks for -/

section

variable {σ : Type} [Host (StateM σ)]

namespace Job

/-- The trace of a job: the content of the file it names, or else what is on the input. -/
inductive TraceIs (job : Job) (machine : σ) (trace : String) : Prop
  | input (unnamed : job.input = none ∨ job.input = some "-")
      (read : inputOf machine = .ok trace) : TraceIs job machine trace
  | file {path : String} (named : job.input = some path) (notDash : path ≠ "-")
      (read : contentOf machine path = .ok trace) : TraceIs job machine trace

/-- The options that hold unless the job says otherwise. -/
inductive DefaultsAre (job : Job) (machine : σ) : Options → Prop
  | builtin (unnamed : job.options = none) : DefaultsAre job machine {}
  | file {path text : String} {defaults : Options} (named : job.options = some path)
      (read : contentOf machine path = .ok text) (parsed : Options.ofText text = .ok defaults) :
      DefaultsAre job machine defaults

/-- The conversion that a job asks for, made of what is on the machine, with what it tells the
log. -/
def Converts (job : Job) (machine : σ) (conversion : Conversion) (records : List LogRecord) :
    Prop :=
  ∃ trace defaults, job.TraceIs machine trace ∧ job.DefaultsAre machine defaults ∧
    let options : Options := {
      pipelineName := job.name.or defaults.pipelineName
      defaultImage := job.image.or defaults.defaultImage
      mergeSteps := defaults.mergeSteps && !job.noMerge }
    Conversion.ofText .builtin options trace = .ok conversion ∧
      ∃ root, Span.ofText trace = .ok root ∧
        records = Conversion.records .builtin options root

end Job

end

/-! ## What a run prints -/

/-- The document of a job is in YAML unless it asks for JSON. -/
inductive Job.Prints (job : Job) (pipeline : Pipeline) : String → Prop
  | yaml (asked : job.format = none ∨ job.format = some .yaml) :
      Prints job pipeline pipeline.yamlText
  | json (asked : job.format = some .json) : Prints job pipeline pipeline.jsonText

private theorem Job.prints_document (job : Job) (pipeline : Pipeline) :
    job.Prints pipeline (job.document pipeline) := by
  unfold document
  cases asked : job.format with
  | none => exact .yaml (.inl asked)
  | some format =>
      cases format with
      | yaml => exact .yaml (.inr asked)
      | json => exact .json asked

/-- What is printed for a document: a line feed follows it unless it ends with one. -/
inductive Ended : String → String → Prop
  | already (body : String) : Ended (body ++ "\n") (body ++ "\n")
  | added {document : String} (unended : ∀ body, document ≠ body ++ "\n") :
      Ended document (document ++ "\n")

/-- What is printed for diagnostics: each is announced as a warning and ends its line. -/
inductive Warned : List Diagnostic → String → Prop
  | nil : Warned [] ""
  | cons {diagnostic : Diagnostic} {diagnostics : List Diagnostic} {text : String}
      (others : Warned diagnostics text) :
      Warned (diagnostic :: diagnostics) ("warning: " ++ diagnostic.display ++ "\n" ++ text)

theorem getLast?_eq_lineFeed_iff (document : String) :
    document.toList.getLast? = some '\n' ↔ ∃ body, document = body ++ "\n" := by
  rw [List.getLast?_eq_some_iff]
  constructor
  · intro holds
    obtain ⟨body, split⟩ := holds
    refine ⟨String.ofList body, ?_⟩
    rw [← String.toList_inj, split, String.toList_append, String.toList_ofList]
    rfl
  · intro holds
    obtain ⟨body, rfl⟩ := holds
    exact ⟨body.toList, String.toList_append⟩

theorem outputTexts_of_ended (body : String) :
    outputTexts (body ++ "\n") = [body ++ "\n"] :=
  if_pos ((getLast?_eq_lineFeed_iff _).mpr ⟨body, rfl⟩)

theorem outputTexts_of_unended {document : String} (unended : ∀ body, document ≠ body ++ "\n") :
    outputTexts document = [document, "\n"] := by
  refine if_neg fun ended => ?_
  obtain ⟨body, split⟩ := (getLast?_eq_lineFeed_iff document).mp ended
  exact unended body split

theorem ended_or_unended (document : String) :
    (∃ body, document = body ++ "\n") ∨ ∀ body, document ≠ body ++ "\n" := by
  by_cases ended : ∃ body, document = body ++ "\n"
  · exact .inl ended
  · exact .inr (not_exists.mp ended)

private theorem ended_outputTexts (document : String) :
    Ended document (joined (outputTexts document)) := by
  obtain ⟨body, rfl⟩ | unended := ended_or_unended document
  · rw [outputTexts_of_ended]
    simpa [joined] using Ended.already body
  · rw [outputTexts_of_unended unended]
    simpa [joined] using Ended.added unended

private theorem warned_joined (diagnostics : List Diagnostic) :
    Warned diagnostics (joined (diagnostics.map warningLine)) := by
  induction diagnostics with
  | nil => exact .nil
  | cons diagnostic rest ih => exact .cons ih

/-- A diagnostic without line feeds has a line of its own. -/
theorem Warned.lines {diagnostics : List Diagnostic} {text : String}
    (warned : Warned diagnostics text)
    (single : ∀ diagnostic ∈ diagnostics, '\n' ∉ diagnostic.display.toList) :
    Text.splitBy (· == '\n') text.toList =
      (diagnostics.map fun diagnostic => ("warning: " ++ diagnostic.display).toList) ++ [[]] := by
  induction warned with
  | nil => rfl
  | @cons diagnostic diagnostics text others ih =>
      obtain ⟨own, rest⟩ := List.forall_mem_cons.mp single
      have line : ∀ c ∈ ("warning: " ++ diagnostic.display).toList, (c == '\n') = false := by
        intro c member
        rw [String.toList_append, List.mem_append] at member
        refine beq_eq_false_iff_ne.mpr ?_
        intro same
        subst same
        exact member.elim (by decide) own
      have whole : ("warning: " ++ diagnostic.display ++ "\n" ++ text).toList =
          ("warning: " ++ diagnostic.display).toList ++ '\n' :: text.toList := by
        simp
      rw [whole, Text.splitBy_append_cut (by decide), Text.splitBy_of_notCut line, ih rest]
      rfl

/-! ## What a run leaves behind -/

section

variable {σ : Type} [Host (StateM σ)] [MachineView σ]

namespace Job

/-- A document is in the place that a job names for it, and nowhere else. -/
inductive Delivered (job : Job) (document : String) (before after : σ) : Prop
  | screen {text : String} (unnamed : job.output = none) (ended : Ended document text)
      (printed : outputOf after = outputOf before ++ text)
      (files : ∀ name, fileOf? after name = fileOf? before name) :
      Delivered job document before after
  | file {path : String} (named : job.output = some path)
      (stored : Stored before after path document) : Delivered job document before after

/-- A document is printed without the line feed that it needs. -/
def Unfinished (job : Job) (before after : σ) : Prop :=
  ∃ conversion records, job.Converts before conversion records ∧ job.output = none ∧
    (∀ body, job.document conversion.pipeline ≠ body ++ "\n") ∧
      outputOf after = outputOf before ++ job.document conversion.pipeline

/-- A machine takes all that is to be written: the warnings, and the document in its place. -/
def Accepts (job : Job) (conversion : Conversion) (records : List LogRecord) (machine : σ) :
    Prop :=
  ∃ warned, Takes Host.writeErrors (logging machine records)
      (conversion.diagnostics.map warningLine) warned ∧
    match job.output with
    | none =>
      ∃ printed, Takes Host.writeOutput warned (outputTexts (job.document conversion.pipeline))
        printed
    | some path => (afterWriting warned path (job.document conversion.pipeline)).1 = .ok ()

end Job

/-- What a run has reported: what the log shows of its records, and then the warnings. The log has
one record for each diagnostic. -/
structure Told (diagnostics : List Diagnostic) (records : List LogRecord) (before after : σ) :
    Prop where
  log : LogRecord.Tell records diagnostics
  errors : ∃ logged warnings, errorsOf (logging before records) = errorsOf before ++ logged ∧
    errorsOf after = errorsOf before ++ (logged ++ warnings) ∧ Warned diagnostics warnings ∧
      ((∀ diagnostic ∈ diagnostics, '\n' ∉ diagnostic.display.toList) →
        Text.splitBy (· == '\n') warnings.toList =
          (diagnostics.map fun diagnostic => ("warning: " ++ diagnostic.display).toList) ++ [[]])

namespace Job

/-- What a run leaves behind when it fails, when it succeeds, and when it has to succeed. -/
structure Ends (job : Job) (before after : σ) (code : UInt32) : Prop where
  failed : code ≠ 0 → (∀ name, fileOf? after name = fileOf? before name) ∧
    (outputOf after = outputOf before ∨ job.Unfinished before after)
  done : code = 0 → ∃ conversion records document, job.Converts before conversion records ∧
    job.Prints conversion.pipeline document ∧ job.Delivered document before after ∧
    Told conversion.diagnostics records before after
  complete : ∀ conversion records, job.Converts before conversion records →
    job.Accepts conversion records before → code = 0

theorem Ends.of_printed {job : Job} {before after : σ} {code : UInt32} {report : String}
    (nonzero : code ≠ 0) (printed : Printed before after "" report)
    (refuses : ∀ conversion records, job.Converts before conversion records →
      ¬job.Accepts conversion records before) : job.Ends before after code where
  failed := fun _ => ⟨printed.files, .inl (by rw [printed.output, String.append_empty])⟩
  done := fun zero => absurd zero nonzero
  complete := fun conversion records converts accepts =>
    absurd accepts (refuses conversion records converts)

end Job

end

/-! ## Reading -/

namespace Job

section

variable {σ : Type} [Host (StateM σ)] (job : Job) (machine : σ)

theorem readPath_eq_ok_iff {path text : String} :
    ((readPath path : StateM σ (Except Trouble String)).run machine).1 = .ok text ↔
      contentOf machine path = .ok text :=
  mapError_eq_ok_iff

private theorem readTrace_of_unnamed {job : Job}
    (unnamed : job.input = none ∨ job.input = some "-") :
    (job.readTrace : StateM σ (Except Trouble String)) =
      (do pure ((← Host.readInput).mapError (.read "stdin"))) := by
  unfold readTrace
  rcases unnamed with none | dash
  · rw [none]
  · rw [dash]
    rfl

private theorem readTrace_of_named {job : Job} {path : String} (named : job.input = some path)
    (notDash : path ≠ "-") :
    (job.readTrace : StateM σ (Except Trouble String)) = readPath path := by
  unfold readTrace
  rw [named]
  split
  case h_1 none => cases none
  case h_2 dash => exact absurd (Option.some.inj dash) notDash
  case h_3 same => rw [Option.some.inj same]

private theorem unnamed_or_named : (job.input = none ∨ job.input = some "-") ∨
    ∃ path, job.input = some path ∧ path ≠ "-" := by
  cases named : job.input with
  | none => exact .inl (.inl rfl)
  | some path =>
      by_cases dash : path = "-"
      · exact .inl (.inr (by rw [dash]))
      · exact .inr ⟨path, rfl, dash⟩

theorem readTrace_eq_ok_iff {trace : String} :
    ((job.readTrace : StateM σ (Except Trouble String)).run machine).1 = .ok trace ↔
      job.TraceIs machine trace := by
  rcases job.unnamed_or_named with unnamed | ⟨path, named, notDash⟩
  · rw [readTrace_of_unnamed unnamed]
    refine mapError_eq_ok_iff.trans ⟨.input unnamed, ?_⟩
    intro holds
    obtain ⟨-, read⟩ | ⟨named, notDash, -⟩ := holds
    · exact read
    · rcases unnamed with none | dash
      · cases none.symm.trans named
      · exact absurd (Option.some.inj (named.symm.trans dash)) notDash
  · rw [readTrace_of_named named notDash, readPath_eq_ok_iff]
    refine ⟨.file named notDash, ?_⟩
    intro holds
    obtain ⟨none | dash, -⟩ | ⟨same, -, read⟩ := holds
    · cases none.symm.trans named
    · exact absurd (Option.some.inj (named.symm.trans dash)) notDash
    · rwa [Option.some.inj (named.symm.trans same)]

theorem readOptions_eq_ok_iff {options : Options} :
    ((job.readOptions : StateM σ (Except Trouble Options)).run machine).1 = .ok options ↔
      ∃ defaults, job.DefaultsAre machine defaults ∧ options = job.override defaults := by
  unfold readOptions
  cases named : job.options with
  | none =>
      constructor
      · intro read
        cases read
        exact ⟨{}, .builtin named, rfl⟩
      · intro holds
        obtain ⟨defaults, _ | ⟨other, -, -⟩, rfl⟩ := holds
        · rfl
        · cases named.symm.trans other
  | some path =>
      refine bind_eq_ok_iff.trans ⟨?_, ?_⟩
      · intro holds
        obtain ⟨text, read, parsed⟩ := holds
        obtain ⟨defaults, parsed, overridden⟩ := map_eq_ok_iff.mp parsed
        have content := (readPath_eq_ok_iff machine).mp read
        exact ⟨defaults, .file named content (mapError_eq_ok_iff.mp parsed), overridden.symm⟩
      · intro holds
        obtain ⟨defaults, unnamed | ⟨same, content, parsed⟩, rfl⟩ := holds
        · cases named.symm.trans unnamed
        · cases named.symm.trans same
          exact ⟨_, (readPath_eq_ok_iff machine).mpr content,
            map_eq_ok_iff.mpr ⟨defaults, mapError_eq_ok_iff.mpr parsed, rfl⟩⟩

theorem Converts.tell {job : Job} {machine : σ} {conversion : Conversion}
    {records : List LogRecord} (converts : job.Converts machine conversion records) :
    LogRecord.Tell records conversion.diagnostics := by
  obtain ⟨trace, defaults, -, -, converted, root, read, rfl⟩ := converts
  rw [Conversion.ofText, read] at converted
  cases converted
  exact Conversion.tell_records _ _ _

end

end Job

section

variable {σ : Type} [Host (StateM σ)] [MachineView σ] [LawfulHost σ] (job : Job) (machine : σ)

namespace Job

theorem keeps_readPath (path : String) :
    Keeps (readPath path : StateM σ (Except Trouble String)) :=
  (LawfulHost.keeps_readFile path).bind fun _ => .pure _

private theorem keeps_readTrace : Keeps (job.readTrace : StateM σ (Except Trouble String)) := by
  unfold readTrace
  split
  · exact LawfulHost.keeps_readInput.bind fun _ => .pure _
  · exact LawfulHost.keeps_readInput.bind fun _ => .pure _
  · exact keeps_readPath _

private theorem keeps_readOptions :
    Keeps (job.readOptions : StateM σ (Except Trouble Options)) := by
  unfold readOptions
  split
  · exact .pure _
  · exact (keeps_readPath _).bind fun _ => .pure _

theorem conversion_run :
    (job.conversion : StateM σ (Except Trouble (Conversion × List LogRecord))).run machine =
      (((job.readTrace : StateM σ (Except Trouble String)).run machine).1.bind fun trace =>
        ((job.readOptions : StateM σ (Except Trouble Options)).run machine).1.bind fun options =>
          (Conversion.ofTextLogged .builtin options trace).mapError .unconvertible,
      machine) := by
  unfold conversion
  rw [(keeps_readTrace job).run_bind]
  cases ((job.readTrace : StateM σ (Except Trouble String)).run machine).1 with
  | error trouble => rfl
  | ok trace =>
      simp only
      rw [(keeps_readOptions job).run_bind]
      cases ((job.readOptions : StateM σ (Except Trouble Options)).run machine).1 with
      | error trouble => rfl
      | ok options => rfl

private theorem keeps_conversion :
    Keeps (job.conversion : StateM σ (Except Trouble (Conversion × List LogRecord))) := by
  intro machine
  rw [conversion_run]

theorem conversion_eq_ok_iff {conversion : Conversion} {records : List LogRecord} :
    ((job.conversion : StateM σ (Except Trouble (Conversion × List LogRecord))).run machine).1 =
        .ok (conversion, records) ↔ job.Converts machine conversion records := by
  rw [conversion_run]
  refine bind_eq_ok_iff.trans ⟨?_, ?_⟩
  · intro holds
    obtain ⟨trace, read, rest⟩ := holds
    obtain ⟨options, chosen, converted⟩ := bind_eq_ok_iff.mp rest
    obtain ⟨defaults, found, rfl⟩ := (job.readOptions_eq_ok_iff machine).mp chosen
    exact ⟨trace, defaults, (job.readTrace_eq_ok_iff machine).mp read, found,
      Conversion.ofTextLogged_eq_ok_iff.mp (mapError_eq_ok_iff.mp converted)⟩
  · intro holds
    obtain ⟨trace, defaults, read, found, converted⟩ := holds
    have chosen := (job.readOptions_eq_ok_iff machine).mpr ⟨defaults, found, rfl⟩
    exact ⟨trace, (job.readTrace_eq_ok_iff machine).mpr read, bind_eq_ok_iff.mpr ⟨_, chosen,
      mapError_eq_ok_iff.mpr (Conversion.ofTextLogged_eq_ok_iff.mpr converted)⟩⟩

theorem Converts.unique {job : Job} {machine : σ} {conversion other : Conversion}
    {records others : List LogRecord} (first : job.Converts machine conversion records)
    (second : job.Converts machine other others) : conversion = other ∧ records = others := by
  have same := ((job.conversion_eq_ok_iff machine).mpr first).symm.trans
    ((job.conversion_eq_ok_iff machine).mpr second)
  exact Prod.ext_iff.mp (Except.ok.inj same)

end Job

/-! ## Writing -/

theorem exists_printed_afterErrors (machine : σ) (text : String) :
    ∃ report, Printed machine (afterErrors machine text).2 "" report := by
  cases wrote : afterErrors machine text with
  | mk result after =>
      cases result with
      | ok => exact ⟨text, LawfulHost.of_errors_ok wrote⟩
      | error fault =>
          obtain rfl := LawfulHost.of_errors_error wrote
          exact ⟨"", .refl after⟩

/-- A report of trouble is all that a failure adds. -/
theorem of_run_fail {trouble : Trouble} {before after : σ} {code : UInt32}
    (ran : (fail trouble : StateM σ UInt32).run before = (code, after)) :
    code = 1 ∧ ∃ report, Printed before after "" report := by
  cases ran
  exact ⟨rfl, exists_printed_afterErrors before _⟩

/-- Of a document that is refused, at most the line feed behind it is missing. -/
theorem of_writeOutput_error {document : String} {before after : σ} {fault : FileFault}
    (ran : (writeAll Host.writeOutput (outputTexts document) :
      StateM σ (Except FileFault Unit)).run before = (.error fault, after)) :
    Printed before after "" "" ∨
      Printed before after document "" ∧ ∀ body, document ≠ body ++ "\n" := by
  obtain ⟨taken, refused, rest, between, split, takes, refuses⟩ := of_run_writeAll_error ran
  obtain rfl := LawfulHost.of_output_error refuses
  have printed := printed_output takes
  cases taken with
  | nil => exact .inl printed
  | cons first taken =>
      obtain ⟨body, rfl⟩ | unended := ended_or_unended document
      · rw [outputTexts_of_ended] at split
        cases taken <;> cases split
      · rw [outputTexts_of_unended unended] at split
        cases taken with
        | nil =>
            cases split
            right
            simpa [joined] using And.intro printed unended
        | cons second taken => cases taken <;> cases split

variable {conversion : Conversion} {records : List LogRecord} {before warned after : σ}
  {code : UInt32}

/-- A run has come to the end of its warnings. -/
structure Reported (job : Job) (conversion : Conversion) (records : List LogRecord)
    (before warned : σ) : Prop where
  converts : job.Converts before conversion records
  takes : Takes Host.writeErrors (logging before records)
    (conversion.diagnostics.map warningLine) warned

namespace Reported

variable {job : Job} (reported : Reported job conversion records before warned)

include reported

theorem exists_printed : ∃ logged, errorsOf (logging before records) = errorsOf before ++ logged ∧
    Printed before warned "" (logged ++ joined (conversion.diagnostics.map warningLine)) := by
  obtain ⟨logged, printed⟩ := exists_printed_logging before records
  exact ⟨logged, printed.errors, printed.trans (printed_errors reported.takes)⟩

private theorem told (silent : errorsOf after = errorsOf warned) :
    Told conversion.diagnostics records before after := by
  obtain ⟨logged, shown, printed⟩ := reported.exists_printed
  have warnings := warned_joined conversion.diagnostics
  exact ⟨reported.converts.tell, logged, _, shown, silent.trans printed.errors, warnings,
    warnings.lines⟩

/-- Whether a machine accepts what is to be written is settled by what comes behind the warnings. -/
theorem of_accepts {other : Conversion} {others : List LogRecord}
    (converts : job.Converts before other others) (accepts : job.Accepts other others before) :
    match job.output with
    | none => ∃ printed, Takes Host.writeOutput warned
        (outputTexts (job.document conversion.pipeline)) printed
    | some path => (afterWriting warned path (job.document conversion.pipeline)).1 = .ok () := by
  obtain ⟨rfl, rfl⟩ := reported.converts.unique converts
  obtain ⟨machine, takes, rest⟩ := accepts
  obtain rfl := reported.takes.unique takes
  exact rest

theorem done_of_delivered (silent : errorsOf after = errorsOf warned)
    (delivered : job.Delivered (job.document conversion.pipeline) before after) :
    job.Ends before after 0 where
  failed := fun nonzero => absurd rfl nonzero
  done := fun _ => ⟨conversion, records, _, reported.converts, job.prints_document _, delivered,
    reported.told silent⟩
  complete := fun _ _ _ _ => rfl

private theorem ends_of_print (unnamed : job.output = none)
    (ran : (job.deliver conversion : StateM σ UInt32).run warned = (code, after)) :
    job.Ends before after code := by
  obtain ⟨logged, -, warnings⟩ := reported.exists_printed
  unfold Job.deliver at ran
  rw [unnamed] at ran
  simp only at ran
  rw [run_bind] at ran
  cases wrote : (writeAll Host.writeOutput (outputTexts (job.document conversion.pipeline)) :
      StateM σ (Except FileFault Unit)).run warned with
  | mk result written =>
      rw [wrote] at ran
      cases result with
      | ok =>
          cases ran
          have printed := printed_output (run_writeAll_eq_ok_iff.mp wrote)
          have whole := warnings.trans printed
          have output := whole.output
          rw [String.empty_append] at output
          refine reported.done_of_delivered ?_
            (.screen unnamed (ended_outputTexts _) output whole.files)
          rw [printed.errors, String.append_empty]
      | error fault =>
          obtain ⟨rfl, report, failed⟩ := of_run_fail ran
          refine { failed := fun _ => ?_, done := nofun, complete := ?_ }
          · obtain nothing | ⟨document, unended⟩ := of_writeOutput_error wrote
            · have whole := warnings.trans (nothing.trans failed)
              exact ⟨whole.files, .inl (by simpa using whole.output)⟩
            · have whole := warnings.trans (document.trans failed)
              exact ⟨whole.files, .inr ⟨conversion, records, reported.converts, unnamed, unended,
                by simpa using whole.output⟩⟩
          · intro other others converts accepts
            have accepted := reported.of_accepts converts accepts
            rw [unnamed] at accepted
            obtain ⟨printed, takes⟩ := accepted
            cases wrote.symm.trans (run_writeAll_eq_ok_iff.mpr takes)

private theorem ends_of_write {path : String} (named : job.output = some path)
    (ran : (job.deliver conversion : StateM σ UInt32).run warned = (code, after)) :
    job.Ends before after code := by
  obtain ⟨logged, -, warnings⟩ := reported.exists_printed
  unfold Job.deliver at ran
  rw [named] at ran
  simp only at ran
  rw [run_bind] at ran
  cases wrote : (Host.writeFile path (job.document conversion.pipeline) :
      StateM σ (Except FileFault Unit)).run warned with
  | mk result written =>
      rw [wrote] at ran
      cases result with
      | ok =>
          cases ran
          obtain ⟨stored, silent⟩ := LawfulHost.of_writing_ok wrote
          exact reported.done_of_delivered silent (.file named (.of_printed warnings stored))
      | error fault =>
          obtain ⟨rfl, report, failed⟩ := of_run_fail ran
          obtain rfl := LawfulHost.of_writing_error wrote
          refine .of_printed (by decide) (warnings.trans failed) ?_
          intro other others converts accepts
          have accepted := reported.of_accepts converts accepts
          rw [named] at accepted
          cases (congrArg Prod.fst wrote).symm.trans accepted

end Reported

namespace Job

variable {job : Job}

theorem ends_of_deliver (reported : Reported job conversion records before warned)
    (ran : (job.deliver conversion : StateM σ UInt32).run warned = (code, after)) :
    job.Ends before after code := by
  cases place : job.output with
  | none => exact reported.ends_of_print place ran
  | some path => exact reported.ends_of_write place ran

theorem ends_of_run (ran : (job.run : StateM σ UInt32).run before = (code, after)) :
    job.Ends before after code := by
  unfold run at ran
  rw [job.keeps_conversion.run_bind] at ran
  cases made : ((job.conversion :
      StateM σ (Except Trouble (Conversion × List LogRecord))).run before).1 with
  | error trouble =>
      rw [made] at ran
      obtain ⟨rfl, report, printed⟩ := of_run_fail ran
      refine .of_printed (by decide) printed ?_
      intro conversion records converts
      cases made.symm.trans ((job.conversion_eq_ok_iff before).mpr converts)
  | ok made' =>
      obtain ⟨conversion, records⟩ := made'
      have converts := (job.conversion_eq_ok_iff before).mp made
      rw [made] at ran
      simp only at ran
      rw [run_bind, run_logAll, run_bind] at ran
      cases wrote : (writeAll Host.writeErrors (conversion.diagnostics.map warningLine) :
          StateM σ (Except FileFault Unit)).run (logging before records) with
      | mk result warned =>
          rw [wrote] at ran
          cases result with
          | ok => exact ends_of_deliver ⟨converts, run_writeAll_eq_ok_iff.mp wrote⟩ ran
          | error fault =>
              cases ran
              obtain ⟨taken, refused, rest, between, -, takes, refuses⟩ :=
                of_run_writeAll_error wrote
              obtain rfl := LawfulHost.of_errors_error refuses
              obtain ⟨logged, printed⟩ := exists_printed_logging before records
              refine .of_printed (by decide) (printed.trans (printed_errors takes)) ?_
              intro other others also accepts
              obtain ⟨rfl, rfl⟩ := converts.unique also
              obtain ⟨machine, takes', -⟩ := accepts
              cases wrote.symm.trans (run_writeAll_eq_ok_iff.mpr takes')

end Job

end

/-! ## Some runs -/

def braced (fields : String) : String :=
  "\x7b" ++ fields ++ "\x7d"

/-- A trace of one span, for whose type there is no converter. -/
def rolloutTrace (typeName : String) : String :=
  braced ("\"stepType\": \"" ++ typeName ++ "\", \"spanId\": \"aaaaaa\", " ++
    "\"name\": \"rollout\", \"attributes\": " ++ braced "\"step.id\": \"1\"")

def rolloutDocument : String :=
  "version: 1\nkind: pipeline\nname: nightly\nspec:\n  stages:\n  - id: build\n" ++
  "    name: build\n    type: ci\n    spec:\n      steps:\n      - id: rolloutaaaaaa\n" ++
  "        name: rollout\n        type: script\n        spec:\n          image: alpine\n" ++
  "          shell: sh\n          run: |-\n            # Unsupported step type: deploy\n" ++
  "            # Parameters:\n            # \x7b\x7d\n" ++
  "            echo \"Unsupported step type: deploy\"\n"

def rolloutSession : Session where
  directory.files := [
    ("options.json", braced "\"pipelineName\": \"weekly\", \"defaultImage\": \"alpine\""),
    ("trace.json", rolloutTrace "deploy")]
  logLevel := some .warn

def rolloutJob : Job where
  input := some "trace.json"
  options := some "options.json"
  name := some "nightly"
  output := some "out.yaml"

def rolloutArguments : List String :=
  ["trace.json", "--options=options.json", "-n", "nightly", "-o", "out.yaml"]

/-- The session after the run. The log and the warnings tell of the placeholder. -/
def rolloutDone : Session where
  directory.files := rolloutSession.directory.files.insert "out.yaml" rolloutDocument
  errors :=
    " WARN Unsupported step type 'deploy' converted to a placeholder " ++
      "code=\"W003\" span=aaaaaa\n" ++
    "warning: [W003] Unsupported step type 'deploy' converted to a placeholder " ++
      "(span 'aaaaaa')\n"
  logLevel := some .warn

/-- A run that fails prints nothing at all, and one that succeeds reports its diagnostics and no
more, each on one line. -/
structure Strict (before : Session) (arguments : List String) : Prop where
  silent : (before.run arguments).1 ≠ 0 → (before.run arguments).2.output = before.output
  lines : ∀ job conversion records, Request.ofArguments arguments = .ok (.convert job) →
    job.Converts before conversion records → (before.run arguments).1 = 0 →
      ∃ warnings, (before.run arguments).2.errors = before.errors ++ warnings ∧
        Text.splitBy (· == '\n') warnings.toList =
          (conversion.diagnostics.map fun diagnostic => ("warning: " ++ diagnostic.display).toList)
            ++ [[]]

private theorem Strict.length_lines {before : Session} {arguments : List String}
    (strict : Strict before arguments) (job : Job) (count : Nat)
    (asked : Request.ofArguments arguments = .ok (.convert job))
    (made : (((job.conversion :
      StateM Session (Except Trouble (Conversion × List LogRecord))).run before).1.toOption.map
        fun made => made.1.diagnostics.length) = some count)
    (ran : (before.run arguments).1 = 0) (fresh : before.errors = "") :
    (Text.splitBy (· == '\n') (before.run arguments).2.errors.toList).length = count + 1 := by
  obtain ⟨⟨conversion, records⟩, found, rfl⟩ := Option.map_eq_some_iff.mp made
  have converts : job.Converts before conversion records := by
    refine (job.conversion_eq_ok_iff before).mp ?_
    cases result : ((job.conversion :
        StateM Session (Except Trouble (Conversion × List LogRecord))).run before).1 with
    | error trouble =>
        rw [result] at found
        cases found
    | ok pair =>
        rw [result] at found
        cases found
        rfl
  obtain ⟨warnings, reported, lines⟩ := strict.lines job conversion records asked converts ran
  rw [reported, fresh, String.empty_append, lines]
  simp

/-- A session with a trace in a file. -/
def sessionWith (trace : String) : Session where
  directory.files := [("trace.json", trace)]

/-- A session whose screen has room for a document without the line feed behind it. -/
def narrowSession : Session :=
  { sessionWith (braced "") with room := some 236 }

end TracePipeline.CommandLine
