import TracePipeline.Converter.Basic

/-!
# Artifacts

Steps that keep, publish or pass on files, all of them plugins.
-/

set_option autoImplicit false

namespace TracePipeline.Converter

/-- File patterns, from a text with commas or a list of such texts. -/
def patterns (param : Param) : List String :=
  (param.texts.flatMap fun entry =>
    ((Text.splitBy (· == ',') entry.toList).map Text.trim).filter
      fun pattern => !pattern.isEmpty).map String.ofList

def requiredPatterns (missing : String) (param : Param) : Except Skipped (List String) :=
  match patterns param with
  | [] => .error ⟨missing⟩
  | found => .ok found

def archiveArtifacts : Convert := fun span context => do
  let artifacts ← requiredPatterns "artifacts" (span.param "artifacts")
  pure [pluginStep span context
    (((((plugin "plugins/archive").withTexts "artifacts" artifacts).withTexts "excludes"
      (patterns (span.param "excludes"))).withBool? "allow_empty"
      (span.param "allowEmptyArchive").asBool?).withBool? "fingerprint"
      (span.param "fingerprint").asBool?)]

def junit : Convert := fun span context => do
  let reports ← requiredPatterns "testResults" (span.param "testResults")
  pure [pluginStep span context
    (((plugin "plugins/junit").withTexts "test_results" reports).withBool? "allow_empty_results"
      (span.param "allowEmptyResults").asBool?)]

def stashKey (name : String) : String :=
  "stash-" ++ trimText name ++ "-<+pipeline.sequenceId>"

/-- A `stash` step saves files under a cache key. Without patterns it saves everything. -/
def stash : Convert := fun span context => do
  let name ← required "name" (span.param "name").text?
  let includes := patterns (span.param "includes")
  let mount := if includes.isEmpty then ["."] else includes
  pure [pluginStep span context
    (((((plugin "plugins/cache").withText "cache_key" (stashKey name)).withTexts "mount"
      mount).withTexts "exclude" (patterns (span.param "excludes"))).withBool? "rebuild"
      (some true))]

def unstash : Convert := fun span context => do
  let name ← required "name" (span.param "name").text?
  pure [pluginStep span context
    (((plugin "plugins/cache").withText "cache_key" (stashKey name)).withBool? "restore"
      (some true))]

/-- An `s3Upload` step uploads files. Its settings may stand anywhere in the sidecar or the
parameters. -/
def s3Upload : Convert := fun span context => do
  let read (key : String) : Option String :=
    (span.sidecar.root.find key).text?.or (span.params.find key).text?
  let bucket ← required "bucket" (read "bucket")
  let source := ((read "file").or (read "includePathPattern")).getD "**"
  pure [pluginStep span context
    ((((((((plugin "plugins/s3").withText "bucket" bucket).withText "source" source).withText?
      "target" (read "path")).withText? "region" (read "region")).withText? "strip_prefix"
      (read "workingDir")).withText "aws_access_key_id" (secret "aws_access_key_id")).withText
      "aws_secret_access_key" (secret "aws_secret_access_key"))]

end TracePipeline.Converter
