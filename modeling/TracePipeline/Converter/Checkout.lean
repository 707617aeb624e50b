import TracePipeline.Converter.Basic
import TracePipeline.Pipeline.Document

/-!
# Checkouts

A checkout becomes a clone step of its own. It also tells the repository of the pipeline and how the
stage is to clone.
-/

set_option autoImplicit false

namespace TracePipeline

namespace Span

/-- The first answer that the parameters or else the sidecar give. -/
def firstSource? {α : Type} (span : Span) (read : Param → Option α) : Option α :=
  (read span.params).or (read span.sidecar.root)

/-- The branch named by a list of branch patterns: by the first of them, or by the object that
stands in the place of the list. -/
def branchPattern? (branches : Param) : Option String :=
  match branches.items with
  | first :: _ => ((Param.ofValue? (some first)).get "name").text?
  | [] => (branches.get "name").text?

def branchName (branch : String) : String :=
  let trimmed := Text.trim branch.toList
  let name := (Text.dropStart? "refs/heads/".toList trimmed).getD trimmed
  String.ofList ((Text.dropStart? "*/".toList name).getD name)

/-- The repository that a checkout names, if it has a location. -/
def repository? (span : Span) : Option Repository := do
  let url ← span.firstSource? fun param => (param.find "url").text?
  let branch := span.firstSource? fun param =>
    (param.get "branch").text?.or (branchPattern? (param.find "branches"))
  let connector := span.firstSource? fun param => (param.find "credentialsId").text?
  pure { url := url, branch := branch.map branchName, connector := connector }

def depthLimit : Nat := Nat.pow 2 32 - 1

/-- How many commits a checkout fetches, if it says so and asks for one at least. -/
def cloneDepth? (span : Span) : Option UInt32 := do
  let depth ← span.firstSource? fun param => (param.find "depth").asReal?
  let commits := depth.floorNat depthLimit
  if commits = 0 then none else some (UInt32.ofNat commits)

/-- How the stage of a checkout clones: not by itself, as the checkout is a step of its own. -/
def cloneSettings (span : Span) : CloneSettings where
  disabled := true
  depth := span.cloneDepth?

end Span

namespace Converter

def checkout : Convert := fun span context => do
  let repository ← required "repository url" span.repository?
  pure [pluginStep span context
    ((((plugin "harness/drone-git").withText "repo_url" repository.url).withText? "branch"
      repository.branch).withSetting? "depth" (span.cloneDepth?.map Json.word32))]

end Converter

end TracePipeline
