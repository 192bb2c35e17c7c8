import DockerfileLint.Proofs.Configuration

/-!
# Building a linter

A builder takes calls in any order. What one call does to it is said once (`BuilderCall.apply_eq`):
rules are added behind the earlier ones, and a configuration or an analyzer takes the place of an
earlier one. After any number of calls the builder therefore has all rules in the order in which
they were given, and the last configuration and the last analyzer (`foldl_apply`). Rules are dropped
and reweighed only when the linter is built, by that configuration alone, so that nothing else of
the order of calls is left in the linter (`build_order_free`).
-/

namespace DockerfileLint

variable {m : Type → Type}

/-- A call of a builder. -/
inductive BuilderCall (m : Type → Type) where
  | rule (rule : Rule)
  | rules (rules : List Rule)
  | config (config : Config)
  | analyzer (analyzer : Analyzer m)

namespace BuilderCall

/-- The builder after a call. -/
def apply (b : LinterBuilder m) : BuilderCall m → LinterBuilder m
  | rule r => b.addRule r
  | rules rs => b.addRules rs
  | config c => b.setConfig c
  | analyzer a => b.setAnalyzer a

/-- The rules that a call gives. -/
def rulesGiven : BuilderCall m → List Rule
  | rule r => [r]
  | rules rs => rs
  | _ => []

/-- The configuration that a call gives. -/
def config? : BuilderCall m → Option Config
  | config c => some c
  | _ => none

/-- The analyzer that a call gives. -/
def analyzer? : BuilderCall m → Option (Analyzer m)
  | analyzer a => some a
  | _ => none

/-- One call: its rules come behind the earlier ones, and what else it gives takes the place of what
was there. -/
theorem apply_eq (b : LinterBuilder m) (call : BuilderCall m) :
    call.apply b =
      ⟨b.rules ++ call.rulesGiven, call.config?.or b.config, call.analyzer?.or b.analyzer⟩ := by
  cases call with
  | rule r => rfl
  | rules rs => rfl
  | config c => simp [apply, LinterBuilder.setConfig, rulesGiven, config?, analyzer?]
  | analyzer a => simp [apply, LinterBuilder.setAnalyzer, rulesGiven, config?, analyzer?]

end BuilderCall

/-! ### Many calls -/

/-- The last thing of a kind that calls give. -/
def lastGiven {α : Type} (give : BuilderCall m → Option α) (calls : List (BuilderCall m)) :
    Option α :=
  (calls.filterMap give).getLast?

/-- All rules that calls give, in order. -/
def allGiven (calls : List (BuilderCall m)) : List Rule := calls.flatMap BuilderCall.rulesGiven

theorem lastGiven_cons {α : Type} (give : BuilderCall m → Option α) (call : BuilderCall m)
    (calls : List (BuilderCall m)) :
    lastGiven give (call :: calls) = (lastGiven give calls).or (give call) := by
  unfold lastGiven
  cases hgive : give call with
  | none => simp [hgive]
  | some a =>
    rw [List.filterMap_cons_some hgive, List.getLast?_cons]
    cases (calls.filterMap give).getLast? <;> rfl

/-- The builder after calls. -/
def LinterBuilder.ofCalls (calls : List (BuilderCall m)) : LinterBuilder m :=
  calls.foldl BuilderCall.apply {}

theorem LinterBuilder.foldl_apply (calls : List (BuilderCall m)) (b : LinterBuilder m) :
    calls.foldl BuilderCall.apply b =
      ⟨b.rules ++ allGiven calls, (lastGiven BuilderCall.config? calls).or b.config,
        (lastGiven BuilderCall.analyzer? calls).or b.analyzer⟩ := by
  induction calls generalizing b with
  | nil => simp [allGiven, lastGiven]
  | cons call calls ih =>
    rw [List.foldl_cons, ih, BuilderCall.apply_eq, lastGiven_cons, lastGiven_cons]
    simp only [allGiven, List.flatMap_cons, List.append_assoc, Option.or_assoc]

theorem LinterBuilder.ofCalls_eq (calls : List (BuilderCall m)) :
    ofCalls calls =
      ⟨allGiven calls, lastGiven BuilderCall.config? calls,
        lastGiven BuilderCall.analyzer? calls⟩ := by
  rw [ofCalls, foldl_apply]
  simp

/-! ### The rules of the linter -/

namespace Config

/-- The configuration switches the rule off. -/
def Disables (config : Config) (r : Rule) : Prop :=
  (config.entryFor? r).bind RuleSetting.enabled = some false

instance (config : Config) : DecidablePred config.Disables :=
  fun _ => inferInstanceAs (Decidable (_ = _))

/-- The severity of a rule: that of its entry, or its own. -/
def severityFor (config : Config) (r : Rule) : Severity :=
  ((config.entryFor? r).bind RuleSetting.severity).getD r.metadata.severity

theorem runs_iff_not_disables (config : Config) (r : Rule) :
    config.runs r = true ↔ ¬config.Disables r := by
  unfold runs isEnabled Disables
  rw [setting?_eq_entryFor?]
  rcases config.entryFor? r with _ | ⟨_ | _ | _, severity⟩ <;> simp

/-- Of a rule that is run, nothing but the severity may change. -/
theorem weigh_eq (config : Config) (r : Rule) :
    config.weigh r = ⟨r.name, ⟨r.code, config.severityFor r, r.metadata.message⟩, r.test⟩ := by
  unfold weigh severity? severityFor
  rw [setting?_eq_entryFor?]
  rcases config.entryFor? r with _ | ⟨enabled, _ | severity⟩ <;> rfl

theorem select_eq (config : Config) (rules : List Rule) :
    config.select rules = (rules.filter fun r => ¬config.Disables r).map fun r =>
      ⟨r.name, ⟨r.code, config.severityFor r, r.metadata.message⟩, r.test⟩ := by
  have hruns : rules.filter config.runs = rules.filter fun r => ¬config.Disables r :=
    List.filter_congr fun r _ => by rw [Bool.eq_iff_iff, runs_iff_not_disables, decide_eq_true_iff]
  rw [select, hruns, funext config.weigh_eq]

end Config

/-- The order of calls does not matter beyond the order of the rules. The linter has all rules that
were given, in order, without those that the last configuration disables, each with nothing changed
but the severity that this configuration asks for; and it has the last configuration, or the default
one, and the last analyzer. So calls that agree in these three things build linters that evaluate
and lint every script alike. -/
theorem build_order_free [Monad m] (calls : List (BuilderCall m)) :
    let config := (lastGiven BuilderCall.config? calls).getD {}
    let linter := (LinterBuilder.ofCalls calls).build
    linter.rules = ((allGiven calls).filter fun r => ¬config.Disables r).map (fun r =>
      ⟨r.name, ⟨r.code, config.severityFor r, r.metadata.message⟩, r.test⟩) ∧
    linter.config = config ∧
    linter.analyzer = lastGiven BuilderCall.analyzer? calls ∧
    ∀ calls', allGiven calls' = allGiven calls →
      (lastGiven BuilderCall.config? calls').getD {} = config →
      lastGiven BuilderCall.analyzer? calls' = lastGiven BuilderCall.analyzer? calls →
      ∀ script, (LinterBuilder.ofCalls calls').build.evaluate script = linter.evaluate script ∧
        (LinterBuilder.ofCalls calls').build.lint script = linter.lint script := by
  intro config linter
  have hbuild : ∀ calls : List (BuilderCall m), (LinterBuilder.ofCalls calls).build =
      ⟨((lastGiven BuilderCall.config? calls).getD {}).select (allGiven calls),
        (lastGiven BuilderCall.config? calls).getD {}, lastGiven BuilderCall.analyzer? calls⟩ := by
    intro calls
    rw [LinterBuilder.ofCalls_eq]
    rfl
  have hlinter : linter =
      ⟨config.select (allGiven calls), config, lastGiven BuilderCall.analyzer? calls⟩ :=
    hbuild calls
  refine ⟨?_, by rw [hlinter], by rw [hlinter], ?_⟩
  · rw [hlinter]
    exact config.select_eq (allGiven calls)
  · intro calls' hrules hconfig hanalyzer script
    have hsame : (LinterBuilder.ofCalls calls').build = linter := by
      rw [hlinter, hbuild, hrules, hconfig, hanalyzer]
    rw [hsame]
    exact ⟨rfl, rfl⟩

/-- The first configuration disables a rule that is given after it, but only the last one counts. -/
theorem build_order_free_between :
    let first : Config := { rules := RuleTable.empty.insert "DL3004" { enabled := some false } }
    let last : Config :=
      { rules :=
          (RuleTable.empty.insert "no-latest-tag" { severity := some .error }).insert "DL3003"
            { enabled := some false } }
    let analyzer : Analyzer Id := .silent fun _ => pure (.ok [⟨2086, .info, "Double quote"⟩])
    let between : List (BuilderCall Id) :=
      [.config first, .rule Catalog.noLatestTag, .analyzer analyzer, .config last,
        .rules [Catalog.noCd, Catalog.noSudo]]
    let atTheEnd : List (BuilderCall Id) :=
      [.rules [Catalog.noLatestTag, Catalog.noCd], .rule Catalog.noSudo, .config last,
        .analyzer analyzer]
    (LinterBuilder.ofCalls between).build.rules =
      [Catalog.noLatestTag.withSeverity .error, Catalog.noSudo] ∧
      ∀ script,
        (LinterBuilder.ofCalls atTheEnd).build.lint script =
          (LinterBuilder.ofCalls between).build.lint script := by
  intro first last analyzer between atTheEnd
  obtain ⟨hrules, -, -, hsame⟩ := build_order_free between
  exact ⟨hrules.trans rfl, fun script => (hsame atTheEnd rfl rfl rfl script).2⟩

end DockerfileLint
