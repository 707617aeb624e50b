import TracePipeline.Text.Blank
import TracePipeline.Text.Search

/-!
# Build tools

The build tools that have a plugin of their own, and the names by which traces refer to them.
-/

set_option autoImplicit false

namespace TracePipeline

inductive Tool where
  | maven
  | gradle
  | ant
  | sonarScanner
  | nodeJs
deriving DecidableEq, Repr

namespace Tool

def all : List Tool :=
  [.maven, .gradle, .ant, .sonarScanner, .nodeJs]

theorem mem_all (tool : Tool) : tool ∈ all := by
  cases tool <;> simp [all]

/-! ## Names -/

/-- The name that ids and display names of a tool's step are made from. -/
def label : Tool → String
  | maven => "Maven"
  | gradle => "Gradle"
  | ant => "Ant"
  | sonarScanner => "SonarQube Scan"
  | nodeJs => "Node.js"

def pluginImage : Tool → String
  | maven => "plugins/maven"
  | gradle => "plugins/gradle"
  | ant => "plugins/ant"
  | sonarScanner => "plugins/sonarqube-scanner"
  | nodeJs => "plugins/node"

def argumentsKey : Tool → String
  | maven => "goals"
  | gradle => "tasks"
  | ant => "targets"
  | sonarScanner => "args"
  | nodeJs => "command"

def commands : Tool → List String
  | maven => ["mvn", "mvnw", "mvn.cmd"]
  | gradle => ["gradle", "gradlew", "gradlew.bat"]
  | ant => ["ant"]
  | sonarScanner => ["sonar-scanner", "sonar-scanner.bat"]
  | nodeJs => ["npm", "npx", "yarn", "pnpm", "node"]

/-- The parameters by which a wrapper names the installation of a tool. -/
def installationKeys : Tool → List String
  | maven => ["maven", "mavenInstallation"]
  | gradle => ["gradle", "gradleInstallation"]
  | ant => ["installation", "antInstallation"]
  | sonarScanner => ["installationName", "credentialsId"]
  | nodeJs => ["nodeJSInstallationName", "installationName"]

/-- The tool that a free-form name such as `maven-3.9` or `NodeJS 20` refers to. The first tool that
fits is taken; the last one has to stand at the start or as a word of its own. -/
def ofName? (name : String) : Option Tool :=
  let lower := Text.asciiLower (Text.trim name.toList)
  let holds (part : String) := Text.occursIn part.toList lower
  let starts (start : String) := Text.startsWith start.toList lower
  let isWord (word : String) := (Text.splitBy (fun c => !c.isAlphanum) lower).contains word.toList
  if holds "maven" || starts "mvn" then some maven
  else if holds "gradle" then some gradle
  else if holds "sonar" then some sonarScanner
  else if holds "node" then some nodeJs
  else if starts "ant" || isWord "ant" then some ant
  else none

/-- The tool that the class of a generic wrapper refers to. -/
def ofWrapperClass? (name : String) : Option Tool :=
  if textContains "Sonar" name then some sonarScanner
  else if textContains "NodeJS" name || textContains "Nodejs" name then some nodeJs
  else if textContains "Ant" name then some ant
  else none

end Tool

end TracePipeline
