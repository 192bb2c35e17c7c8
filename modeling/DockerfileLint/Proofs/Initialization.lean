import DockerfileLint.Proofs.Config.Layout
import DockerfileLint.Proofs.Discovery
import DockerfileLint.Proofs.FileTree

/-!
# Starting a project

`init` looks at one place of the working directory, and what stands there decides everything
(`Program.run_init_cases`). It either fails and leaves the machine as it was, or it writes the
template of a configuration to that place and to no other. The template is read as the default
configuration (`Config.parse?_template`), and its place is the first at which a configuration is
looked for. So the default configuration holds from then on, whatever the other places have
(`Program.init_installs_default`).
-/

namespace DockerfileLint

open Toml (LineSpelling isPlain)

/-! ### The template -/

namespace Config

/-- The lines above the default configuration are comments, and one blank line. -/
theorem lineSpelling_of_mem_comments {line : List Char}
    (h : line ∈ commentLines.map String.toList ++ [[]]) :
    LineSpelling none line := by
  have hcomments : ∀ line ∈ commentLines, line.toList.head? = some '#' ∧
      line.toList.tail.all isPlain = true := by
    decide +kernel
  rcases List.mem_append.1 h with h | h
  · obtain ⟨text, htext, rfl⟩ := List.mem_map.1 h
    obtain ⟨hhead, hplain⟩ := hcomments text htext
    rw [← List.cons_head?_tail hhead]
    exact .comment (List.all_eq_true.1 hplain)
  · rw [List.mem_singleton.1 h]
    exact .blank

theorem template_eq :
    template = String.ofList ((commentLines.map String.toList ++ [[]]).flatMap (· ++ ['\n']) ++
      render {}) := by
  rw [template, List.flatMap_append, List.flatMap_map]
  simp

/-- The template is read as the default configuration. -/
theorem parse?_template : parse? template = some {} := by
  have hspelling := Toml.spelling_comments (fun line h => lineSpelling_of_mem_comments h)
    ({} : Config).spelling_render
  rw [template_eq]
  exact parse?_of_spelling {} ({} : Config).rules.nodup hspelling

end Config

/-! ### Files at a place -/

theorem fromUTF8?_toUTF8 (s : String) : String.fromUTF8? s.toUTF8 = some s := dif_pos s.isValidUTF8

namespace FileTree

variable {t : FileTree} {base place : Location} {path : String}

theorem occupied_of_locate (h : t.locate base path = .ok place) :
    t.occupied base path = (t.get? place).isSome := by
  unfold occupied find
  rw [h]
  dsimp only
  cases t.get? place <;> rfl

theorem disk_of_locate (h : t.locate base path = .ok place) {content : ByteArray}
    (hfile : t.get? place = some (.file content)) : t.disk base path = .file (.ok content) := by
  unfold disk find
  rw [h]
  dsimp only
  rw [hfile]

end FileTree

/-- The place of the configuration that a project starts with. -/
def Workspace.projectPlace (w : Workspace) : Location := w.cwd ++ [Config.projectFile]

/-- The machine with the template in the place of the configuration. -/
def Workspace.withTemplate (w : Workspace) : Workspace :=
  { w with files := w.files.insert w.projectPlace (.file Config.template.toUTF8) }

theorem isEntryName_projectFile : FileTree.IsEntryName Config.projectFile where
  ne_empty := by decide
  ne_here := by decide
  ne_up := by decide
  no_slash := by decide
  no_nul := by decide
  length_le := by decide

section Init

variable {w : Workspace} (hcwd : w.files.get? w.cwd = some .directory)

include hcwd

theorem Workspace.locate_projectFile :
    w.files.locate w.cwd Config.projectFile = .ok w.projectPlace :=
  (FileTree.leadsTo_empty hcwd).locate_joinPath isEntryName_projectFile (by decide)

theorem Workspace.writeFile_projectFile :
    (w.files.get? w.projectPlace = some .directory ∧
      writeFile Config.projectFile Config.template w = (.error .isDirectory, w)) ∨
    (w.files.get? w.projectPlace ≠ some .directory ∧
      writeFile Config.projectFile Config.template w = (.ok (), w.withTemplate)) := by
  unfold writeFile FileTree.write
  rw [locate_projectFile hcwd]
  dsimp only
  rcases hentry : w.files.get? w.projectPlace with _ | (content | _)
  · exact .inr ⟨by simp, rfl⟩
  · exact .inr ⟨by simp, rfl⟩
  · exact .inl ⟨rfl, rfl⟩

end Init

namespace Program

theorem run_init_eq (programs : Programs) (force : Bool) (w : Workspace) :
    (init (Workspace.host programs) force).run w =
      if w.files.occupied w.cwd Config.projectFile && !force then
        (⟨"", .failure (.configPresent Config.projectFile)⟩, w)
      else match Workspace.writeFile Config.projectFile Config.template w with
        | (.ok (), w') => (⟨nextSteps, .clean⟩, w')
        | (.error cause, w') => (⟨"", .failure (.configUnwritable cause)⟩, w') := by
  rw [init, StateT.run_bind]
  show StateT.run (if (w.files.occupied w.cwd Config.projectFile && !force) = true then _ else _)
    w = _
  split_ifs
  · rfl
  · have hwrite : StateT.run
        ((Workspace.host programs).writeFile Config.projectFile Config.template) w =
        Workspace.writeFile Config.projectFile Config.template w := rfl
    rw [StateT.run_bind, hwrite]
    rcases Workspace.writeFile Config.projectFile Config.template w with ⟨_ | _, w'⟩ <;> rfl

/-- What `init` does, by what stands in the place of the configuration. -/
theorem run_init_cases (programs : Programs) (force : Bool) {w : Workspace}
    (hcwd : w.files.get? w.cwd = some .directory) :
    ((w.files.get? w.projectPlace = none ∨
        (∃ content, w.files.get? w.projectPlace = some (.file content)) ∧ force = true) ∧
      (init (Workspace.host programs) force).run w = (⟨nextSteps, .clean⟩, w.withTemplate)) ∨
    ((w.files.get? w.projectPlace ≠ none ∧ force = false ∨
        w.files.get? w.projectPlace = some .directory ∧ force = true) ∧
      ∃ cause, (init (Workspace.host programs) force).run w = (⟨"", .failure cause⟩, w)) := by
  rw [run_init_eq, FileTree.occupied_of_locate (Workspace.locate_projectFile hcwd)]
  obtain ⟨hdir, hwrite⟩ | ⟨hdir, hwrite⟩ := Workspace.writeFile_projectFile hcwd
  · rw [hwrite, hdir]
    cases force with
    | false => exact .inr ⟨.inl ⟨by simp, rfl⟩, _, rfl⟩
    | true => exact .inr ⟨.inr ⟨rfl, rfl⟩, _, rfl⟩
  · rw [hwrite]
    rcases hentry : w.files.get? w.projectPlace with _ | (content | _)
    · exact .inl ⟨.inl rfl, rfl⟩
    · cases force with
      | false => exact .inr ⟨.inl ⟨by simp, rfl⟩, _, rfl⟩
      | true => exact .inl ⟨.inr ⟨⟨content, rfl⟩, rfl⟩, rfl⟩
    · exact absurd hentry hdir

end Program

/-! ### The configuration after it -/

theorem Host.Shows.verbose {σ : Type} {host : Host (StateM σ)} {disk : σ → Disk}
    (h : host.Shows disk) (wanted : Bool) :
    (host.verbose wanted).Shows disk := by
  cases wanted with
  | true => exact h
  | false =>
    refine ⟨⟨h.keeps.isFile, fun level text st => ?_⟩, h.isFile, h.readFile⟩
    show disk (StateT.run (if level = .debug then pure () else host.log level text) st).2 = disk st
    split_ifs
    · rfl
    · exact h.keeps.log level text st

/-- The template is found through any path to the working directory, and decides. -/
theorem Workspace.config_withTemplate {w : Workspace}
    (hfree : w.files.get? w.projectPlace ≠ some .directory) {dir : String}
    (hdir : w.files.LeadsTo w.cwd dir w.cwd)
    (hlimit : (joinPath dir Config.projectFile).utf8ByteSize ≤ FileTree.pathLimit)
    (global : Option String) :
    (w.withTemplate.files.disk w.cwd).config dir none global = .ok {} := by
  have hlocate : w.withTemplate.files.locate w.cwd (joinPath dir Config.projectFile) =
      .ok w.projectPlace :=
    (hdir.insert hfree _).locate_joinPath isEntryName_projectFile hlimit
  have hfile : w.withTemplate.files.get? w.projectPlace = some (.file Config.template.toUTF8) :=
    FileTree.get?_insert_self _ _ (by simp [projectPlace])
  have hdisk := FileTree.disk_of_locate hlocate hfile
  have hread : (w.withTemplate.files.disk w.cwd (joinPath dir Config.projectFile)).read =
      .ok Config.template := by
    rw [hdisk, Standing.read, fromUTF8?_toUTF8]
  have hisFile : (w.withTemplate.files.disk w.cwd (joinPath dir Config.projectFile)).isFile =
      true := by
    rw [hdisk]
    rfl
  have hchosen : (w.withTemplate.files.disk w.cwd).chosen dir none global =
      some (joinPath dir Config.projectFile) := by
    rw [Disk.chosen, Option.none_or]
    exact List.find?_cons_of_pos hisFile
  rw [Disk.config, hchosen]
  dsimp only
  rw [hread, Config.ofContent, Config.parse?_template]

namespace Program

open CommandLine (Invocation)

theorem perform_init (programs : Programs) (e : Environment) {call : Invocation} {force : Bool}
    (hcall : call.command = .init force) :
    perform (Workspace.host programs) e call = init (Workspace.host programs) force := by
  unfold perform
  rw [hcall]
  cases call.verbose <;> rfl

/-- Starting a project either changes nothing or installs the default configuration. It succeeds if
and only if nothing stands in the place of the configuration, or a file that may be overwritten by
force. A failure leaves the machine as it was. After a success no other place of the file tree has
changed, and the configuration that holds in the working directory, by whatever path it is named, is
the default one. -/
theorem init_installs_default (programs : Programs) (e : Environment) {call : Invocation}
    {force : Bool} (hcall : call.command = .init force) {w : Workspace}
    (hcwd : w.files.get? w.cwd = some .directory) :
    let place := w.cwd ++ ["docklint.toml"]
    let reply := ((perform (Workspace.host programs) e call).run w).1
    let after := ((perform (Workspace.host programs) e call).run w).2
    (reply.ending = .clean ↔
      w.files.get? place = none ∨
      (∃ content, w.files.get? place = some (.file content)) ∧ force = true) ∧
    ((∃ cause, reply.ending = .failure cause) ↔
      w.files.get? place ≠ none ∧ force = false ∨
      w.files.get? place = some .directory ∧ force = true) ∧
    ((∃ cause, reply.ending = .failure cause) → after = w) ∧
    (reply.ending = .clean →
      after = { w with files := after.files } ∧
      after.files.get? place = some (.file Config.template.toUTF8) ∧
      (∀ other, other ≠ place → after.files.get? other = w.files.get? other) ∧
      ∀ programs verbose dir global, w.files.LeadsTo w.cwd dir w.cwd →
        (joinPath dir Config.projectFile).utf8ByteSize ≤ FileTree.pathLimit →
        ((loadConfig ((Workspace.host programs).verbose verbose) dir none global).run after).1 =
          .ok {}) := by
  intro place reply after
  have hexclusive :
      (w.files.get? place = none ∨
        (∃ content, w.files.get? place = some (.file content)) ∧ force = true) →
      ¬(w.files.get? place ≠ none ∧ force = false ∨
        w.files.get? place = some .directory ∧ force = true) := by
    rintro (hnone | ⟨⟨content, hfile⟩, hforce⟩)
    · simp [hnone]
    · simp [hfile, hforce]
  obtain ⟨hfree, hrun⟩ | ⟨hblocked, cause, hrun⟩ := run_init_cases programs force hcwd
  · rw [← perform_init programs e hcall] at hrun
    have hreply : reply = ⟨nextSteps, .clean⟩ := congrArg Prod.fst hrun
    have hafter : after = w.withTemplate := congrArg Prod.snd hrun
    have hdirectory : w.files.get? w.projectPlace ≠ some .directory := by
      rcases hfree with hnone | ⟨⟨content, hfile⟩, -⟩
      · simp [hnone]
      · simp [hfile]
    rw [hreply, hafter]
    refine ⟨iff_of_true rfl hfree,
      iff_of_false (by simp) (hexclusive hfree), by simp, fun _ => ⟨rfl, ?_, ?_, ?_⟩⟩
    · exact FileTree.get?_insert_self _ _ (by simp [Workspace.projectPlace])
    · exact fun other hother => FileTree.get?_insert_of_ne _ _ hother
    · intro programs verbose dir global hdir hlimit
      rw [fst_run_loadConfig ((Workspace.shows programs).verbose verbose)]
      exact congrArg (Except.mapError _)
        (Workspace.config_withTemplate hdirectory hdir hlimit global)
  · rw [← perform_init programs e hcall] at hrun
    have hreply : reply = ⟨"", .failure cause⟩ := congrArg Prod.fst hrun
    have hafter : after = w := congrArg Prod.snd hrun
    rw [hreply, hafter]
    exact ⟨iff_of_false (by simp) fun hfree => hexclusive hfree hblocked,
      iff_of_true ⟨cause, rfl⟩ hblocked, fun _ => rfl, by simp⟩

/-- A project whose configuration is not one, with no text in the second place, and with a valid
configuration in the global directory. -/
def staleProject : Workspace where
  files := ⟨[(["p"], .directory), (["p", "docklint.toml"], .file "ignored = 3".toUTF8),
    (["p", ".docklint.toml"], .file ⟨#[0xff]⟩),
    (["g"], .directory), (["g", "config.toml"], .file "ignored = [\"DL3007\"]".toUTF8)]⟩
  cwd := ["p"]
  bin := []

theorem init_installs_default_stale :
    let host := Workspace.host fun _ _ => none
    let result := (perform host ⟨"/p", none, none, none⟩ ⟨false, none, .init true⟩).run staleProject
    Config.parse? "ignored = 3" = none ∧ result.1.ending = .clean ∧
    ((loadConfig (host.verbose true) "/p" none (some "/g")).run result.2).1 = .ok {} ∧
    result.2.files.get? ["p", ".docklint.toml"] =
      staleProject.files.get? ["p", ".docklint.toml"] := by
  intro host result
  have hcwd : staleProject.files.get? staleProject.cwd = some .directory := rfl
  have hpath : staleProject.files.LeadsTo staleProject.cwd "/p" staleProject.cwd :=
    FileTree.leadsTo_of_locate rfl hcwd
  obtain ⟨hclean, -, -, hsuccess⟩ :=
    init_installs_default (fun _ _ => none) ⟨"/p", none, none, none⟩
      (rfl : (CommandLine.Invocation.mk false none (.init true)).command = .init true) hcwd
  have hended : result.1.ending = .clean := hclean.2 (.inr ⟨⟨_, rfl⟩, rfl⟩)
  obtain ⟨-, -, hframe, hload⟩ := hsuccess hended
  exact ⟨by decide +kernel, hended, hload _ true "/p" (some "/g") hpath (by decide),
    hframe _ (by decide)⟩

end Program

end DockerfileLint
