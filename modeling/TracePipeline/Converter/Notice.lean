import TracePipeline.Converter.Basic

/-!
# Notices

Steps that tell somebody about the build, all of them plugins. What a trace cannot know is asked for
when the pipeline runs, or refers to a secret.
-/

set_option autoImplicit false

namespace TracePipeline.Converter

def runtimeInput : String := "<+input>"

def slackSend : Convert := fun span context =>
  let credential := (span.param "tokenCredentialId").text?.getD "slack_webhook"
  pure [pluginStep span context
    (((((plugin "plugins/slack").withText "webhook" (secret credential)).withText? "channel"
      (span.param "channel").text?).withText? "template" (span.param "message").text?).withText?
      "color" (span.param "color").text?)]

def mail : Convert := fun span context => do
  let recipients ← required "recipients" (span.param "to").text?
  let letter := ["cc", "bcc", "from", "subject", "body"].foldl
    (fun (letter : Plugin) key => letter.withText? key (span.param key).text?)
    ((plugin "plugins/email").withText "recipients" recipients)
  pure [pluginStep span context
    (((letter.withText "host" runtimeInput).withText "port" runtimeInput).withText "password"
      (secret "smtp_password"))]

/-- A plugin for the issue tracker of a site. -/
def jira (site : Option String) : Plugin :=
  (((plugin "plugins/jira").withText "connect_key" (secret "jira_connect_key")).withText "instance"
    (site.getD runtimeInput)).withText "project" runtimeInput

def sidecarFirst (span : Span) (key : String) : Option String :=
  (span.sidecar.get key).text?.or (span.param key).text?

def jiraBuildInfo : Convert := fun span context =>
  pure [pluginStep span context
    ((jira (sidecarFirst span "site")).withText? "branch" (span.sidecar.get "branch").text?)]

def jiraDeploymentInfo : Convert := fun span context =>
  pure [pluginStep span context
    (((((jira (sidecarFirst span "site")).withText? "environment_id"
      (sidecarFirst span "environmentId")).withText? "environment_name"
      (sidecarFirst span "environmentName")).withText? "environment_type"
      (sidecarFirst span "environmentType")).withText? "state" (sidecarFirst span "state"))]

end TracePipeline.Converter
