import DockerfileLint.Analyzer.Process
import DockerfileLint.Linter

/-!
# The linter of a configuration

Rules under a configuration, with the analyzer that the configuration names unless it switches it
off.
-/

namespace DockerfileLint

/-- The linter that a configuration asks for; `run` starts the analyzer's program. -/
def Linter.ofConfig {m : Type → Type} [Monad m] (run : String → List String → String → m Outcome)
    (announce : ShellCommand → m Unit) (config : Config) (rules : List Rule) : Linter m :=
  LinterBuilder.build {
    rules := rules
    config := some config
    analyzer :=
      if config.shellcheck.enabled
        then some ((AnalyzerCommand.ofSettings config.shellcheck).analyzer run announce)
      else none }

end DockerfileLint
