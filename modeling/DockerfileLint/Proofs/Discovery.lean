import DockerfileLint.Program
import DockerfileLint.Proofs.Machine

/-!
# One file decides the configuration

The configuration of a check comes from one file: the one that is named, or the first of the
candidates at which there is a file. Nothing else is read, so what stands at a place of lower rank
has no influence, and a file that decides and cannot be read is an error
(`loadConfig_decided_by_one_file`).

What a host has on its disk is said path by path (`Disk`). Any host that answers for a disk will do
(`Host.Shows`): a `Workspace`, whose disk is its file tree, and a `Machine`, which also keeps
account of what was read.
-/

namespace DockerfileLint

/-! ### Disks -/

/-- What stands at a path: nothing, a directory, or a file, whose content may be out of reach. -/
inductive Standing where
  | absent (cause : FileError)
  | directory
  | file (content : Except FileError ByteArray)

namespace Standing

/-- Whether a file stands there. -/
def isFile : Standing → Bool
  | file _ => true
  | _ => false

/-- The text that can be read there. -/
def read : Standing → Except FileError String
  | absent cause => .error cause
  | directory => .error .isDirectory
  | file (.error cause) => .error cause
  | file (.ok content) =>
    match String.fromUTF8? content with
    | some text => .ok text
    | none => .error .notText

end Standing

/-- What stands at each path. -/
abbrev Disk := String → Standing

/-- What a file tree has at a path from `base` on. -/
def FileTree.disk (t : FileTree) (base : Location) : Disk := fun path =>
  match t.find base path with
  | .error cause => .absent cause
  | .ok .directory => .directory
  | .ok (.file content) => .file (.ok content)

theorem FileTree.isFile_disk (t : FileTree) (base : Location) (path : String) :
    (t.disk base path).isFile = t.isFile base path := by
  unfold disk isFile
  rcases t.find base path with cause | (content | _) <;> rfl

theorem FileTree.read_disk (t : FileTree) (base : Location) (path : String) :
    (t.disk base path).read = t.read base path := by
  unfold disk read
  rcases t.find base path with cause | (content | _) <;> rfl

/-- A question whether there is a file, and a record, leave a view of the host's state as it is. -/
structure Host.Keeps {σ τ : Type} (host : Host (StateM σ)) (view : σ → τ) : Prop where
  isFile : ∀ path st, view ((host.isFile path).run st).2 = view st
  log : ∀ level text st, view ((host.log level text).run st).2 = view st

/-- The host answers for the disk of its state. -/
structure Host.Shows {σ : Type} (host : Host (StateM σ)) (disk : σ → Disk) : Prop where
  keeps : host.Keeps disk
  isFile : ∀ path st, ((host.isFile path).run st).1 = (disk st path).isFile
  readFile : ∀ path st, ((host.readFile path).run st).1 = (disk st path).read

/-- A workspace shows its file tree. -/
theorem Workspace.shows (programs : Programs) :
    (Workspace.host programs).Shows fun w => w.files.disk w.cwd where
  keeps := ⟨fun _ _ => rfl, fun _ _ _ => rfl⟩
  isFile path w := (w.files.isFile_disk w.cwd path).symm
  readFile path w := (w.files.read_disk w.cwd path).symm

/-! ### The file that decides -/

/-- What the content of a file comes to as a configuration. -/
def Config.ofContent (path : String) : Except FileError String → Except ConfigError Config
  | .error cause => .error (.unreadable path cause)
  | .ok text =>
    match Config.parse? text with
    | some config => .ok config
    | none => .error .malformed

/-- The places of a configuration, the first one preferred. -/
def Config.candidates (dir : String) (global : Option String) : List String :=
  [joinPath dir "docklint.toml", joinPath dir ".docklint.toml"] ++
    (global.map (joinPath · "config.toml")).toList

namespace Disk

variable (disk : Disk) (dir : String) (named global : Option String)

/-- The file that decides: the one that is named, else the first candidate at which there is a
file. -/
def chosen : Option String :=
  named.or ((Config.candidates dir global).find? fun path => (disk path).isFile)

/-- The paths that are looked at: the one that is named, else the candidates up to the one that
decides. -/
def consulted : List String :=
  match named with
  | some path => [path]
  | none =>
    (Config.candidates dir global).takeWhile (fun path => !(disk path).isFile) ++
      (disk.chosen dir none global).toList

/-- What the file that decides comes to; the default configuration where there is none. -/
def config : Except ConfigError Config :=
  match disk.chosen dir named global with
  | some path => Config.ofContent path (disk path).read
  | none => .ok {}

end Disk

theorem find?_eq_of_consulted {α : Type} {p q : α → Bool} {xs : List α}
    (h : ∀ x ∈ xs.takeWhile (fun x => !p x) ++ (xs.find? p).toList, q x = p x) :
    xs.find? q = xs.find? p := by
  induction xs with
  | nil => rfl
  | cons x xs ih =>
    cases hp : p x with
    | true =>
      have hq : q x = true := by rw [h x (by simp [hp]), hp]
      rw [List.find?_cons_of_pos hq, List.find?_cons_of_pos hp]
    | false =>
      have hq : q x = false := by rw [h x (by simp [hp]), hp]
      rw [List.find?_cons_of_neg (by simp [hq]), List.find?_cons_of_neg (by simp [hp])]
      refine ih fun y hy => h y ?_
      rw [List.takeWhile_cons_of_pos (by simp [hp]), List.find?_cons_of_neg (by simp [hp])]
      exact List.mem_cons_of_mem _ hy

/-- Disks that agree where one of them is looked at have the same configuration. -/
theorem Disk.config_eq_of_consulted {disk disk' : Disk} {dir : String}
    {named global : Option String}
    (h : ∀ path ∈ disk.consulted dir named global, disk' path = disk path) :
    disk'.config dir named global = disk.config dir named global := by
  have hchosen : disk'.chosen dir named global = disk.chosen dir named global := by
    cases named with
    | some path => rfl
    | none => exact find?_eq_of_consulted fun path hpath => congrArg Standing.isFile (h path hpath)
  unfold config
  rw [hchosen]
  cases hpath : disk.chosen dir named global with
  | none => rfl
  | some path =>
    have hconsulted : path ∈ disk.consulted dir named global := by
      cases named with
      | some named =>
        cases hpath
        exact List.mem_singleton_self _
      | none =>
        refine List.mem_append_right _ ?_
        rw [hpath]
        exact List.mem_singleton_self _
    exact congrArg (fun standing => Config.ofContent path standing.read) (h path hconsulted)

/-- A file that decides and cannot be read as a configuration is an error. -/
theorem Disk.config_eq_error {disk : Disk} {dir : String} {named global : Option String}
    {path : String} (hpath : disk.chosen dir named global = some path)
    (hbroken : ∀ text, (disk path).read = .ok text → Config.parse? text = none) :
    ∃ e, disk.config dir named global = .error e := by
  unfold config
  rw [hpath]
  dsimp only
  cases hread : (disk path).read with
  | error cause => exact ⟨.unreadable path cause, rfl⟩
  | ok text =>
    rw [Config.ofContent, hbroken text hread]
    exact ⟨.malformed, rfl⟩

/-! ### Loading -/

theorem Config.ofFile_eq_map {m : Type → Type} [Monad m] [LawfulMonad m] (host : Host m)
    (path : String) :
    ofFile host path = ofContent path <$> host.readFile path := by
  rw [ofFile, map_eq_pure_bind]
  congr 1
  funext content
  cases content with
  | error cause => rfl
  | ok text =>
    dsimp only [ofContent]
    cases Config.parse? text <;> rfl

/-- What a chosen file comes to; the default configuration where none is chosen. -/
def Config.ofChosen {m : Type → Type} [Monad m] (host : Host m) :
    Option String → m (Except ConfigError Config)
  | some path => ofFile host path
  | none => pure (.ok {})

/-- One step of the search: the answer for the first path ends it, or it goes on with the others. -/
theorem Config.run_firstFile_cons {σ : Type} (host : Host (StateM σ)) (path : String)
    (paths : List String) (st : σ) :
    (firstFile host (path :: paths)).run st =
      if ((host.isFile path).run st).1 then (some path, ((host.isFile path).run st).2)
      else (firstFile host paths).run ((host.isFile path).run st).2 := by
  rw [firstFile, StateT.run_bind]
  show StateT.run (if ((host.isFile path).run st).1 = true then _ else _) _ = _
  split <;> rfl

theorem Config.view_firstFile {σ τ : Type} {host : Host (StateM σ)} {view : σ → τ}
    (hkeeps : host.Keeps view) (paths : List String) (st : σ) :
    view ((firstFile host paths).run st).2 = view st := by
  induction paths generalizing st with
  | nil => rfl
  | cons path paths ih =>
    rw [run_firstFile_cons]
    split
    · exact hkeeps.isFile path st
    · rw [ih, hkeeps.isFile]

section Shown

variable {σ τ : Type} {host : Host (StateM σ)} {disk : σ → Disk} {view : σ → τ}
  (hshows : host.Shows disk) (hkeeps : host.Keeps view)

include hshows

/-- The search ends at the first file. -/
theorem Config.run_firstFile (paths : List String) (st : σ) :
    ((firstFile host paths).run st).1 = paths.find? (fun path => (disk st path).isFile) := by
  induction paths generalizing st with
  | nil => rfl
  | cons path paths ih =>
    rw [run_firstFile_cons, hshows.isFile, List.find?_cons]
    cases (disk st path).isFile with
    | true => rfl
    | false =>
      rw [← hshows.keeps.isFile path st]
      exact ih _

theorem Config.run_ofChosen (chosen : Option String) (st : σ) :
    ((ofChosen host chosen).run st).1 =
      match chosen with
      | some path => ofContent path (disk st path).read
      | none => .ok {} := by
  cases chosen with
  | none => rfl
  | some path =>
    rw [ofChosen, ofFile_eq_map]
    exact congrArg (ofContent path) (hshows.readFile path st)

include hkeeps

/-- A search changes neither the disk nor what the host keeps. -/
theorem Config.exists_run_firstFile (paths : List String) (st : σ) :
    ∃ st', disk st' = disk st ∧ view st' = view st ∧
      (firstFile host paths).run st = (paths.find? (fun path => (disk st path).isFile), st') :=
  ⟨_, view_firstFile hshows.keeps paths st, view_firstFile hkeeps paths st,
    Prod.ext (run_firstFile hshows paths st) rfl⟩

/-- A search in a directory and its fallback choose one file, and only then is it read. -/
theorem Config.run_discover (dir : String) (global : Option String) (st : σ) :
    ∃ st', disk st' = disk st ∧ view st' = view st ∧
      (discover host dir global).run st =
        (ofChosen host ((disk st).chosen dir none global)).run st' := by
  have hcandidates : candidates dir global =
      localNames.map (joinPath dir) ++ global.toList.map fun d => joinPath d globalName := by
    cases global <;> rfl
  obtain ⟨st', hdisk, hview, hglobal⟩ := exists_run_firstFile hshows hkeeps
    (global.toList.map fun d => joinPath d globalName) st
  -- the fallback is known by now, and the directory is searched on the same disk
  obtain ⟨st'', hdisk', hview', hlocal⟩ := exists_run_firstFile hshows hkeeps
    (localNames.map (joinPath dir)) st'
  rw [hdisk] at hdisk' hlocal
  rw [hview] at hview'
  rw [discover, StateT.run_bind, findGlobal, hglobal, Disk.chosen, Option.none_or, hcandidates,
    List.find?_append]
  show ∃ _, _ ∧ _ ∧ (findLocal host dir >>= _ : StateM σ _).run st' = _
  rw [StateT.run_bind, findLocal, hlocal]
  cases (localNames.map (joinPath dir)).find? fun path => (disk st path).isFile with
  | some path =>
    exact ⟨_, (hshows.keeps.log _ _ st'').trans hdisk', (hkeeps.log _ _ st'').trans hview', rfl⟩
  | none =>
    rw [Option.none_or]
    cases (global.toList.map fun d => joinPath d globalName).find?
        fun path => (disk st path).isFile with
    | none => exact ⟨st'', hdisk', hview', rfl⟩
    | some path =>
      exact ⟨_, (hshows.keeps.log _ _ st'').trans hdisk', (hkeeps.log _ _ st'').trans hview', rfl⟩

end Shown

/-- The words around a configuration error: those of the named file, or those of the directory. -/
def Program.failureOf (dir : String) : Option String → ConfigError → Failure
  | some path => .configFile path
  | none => .configSearch dir

/-- Loading chooses one file, and only then is it read. -/
theorem Program.run_loadConfig {σ τ : Type} {host : Host (StateM σ)} {disk : σ → Disk}
    {view : σ → τ} (hshows : host.Shows disk) (hkeeps : host.Keeps view) (dir : String)
    (named global : Option String) (st : σ) :
    ∃ st', disk st' = disk st ∧ view st' = view st ∧
      (loadConfig host dir named global).run st =
        (Except.mapError (failureOf dir named) <$>
          Config.ofChosen host ((disk st).chosen dir named global)).run st' := by
  cases named with
  | some path => exact ⟨_, hshows.keeps.log _ _ st, hkeeps.log _ _ st, rfl⟩
  | none =>
    obtain ⟨st', hdisk, hview, hrun⟩ := Config.run_discover hshows hkeeps dir global st
    refine ⟨st', hdisk, hview, ?_⟩
    rw [loadConfig, StateT.run_bind, hrun]
    rfl

/-- What is loaded depends on the disk alone. -/
theorem Program.fst_run_loadConfig {σ : Type} {host : Host (StateM σ)} {disk : σ → Disk}
    (hshows : host.Shows disk) (dir : String) (named global : Option String) (st : σ) :
    ((loadConfig host dir named global).run st).1 =
      ((disk st).config dir named global).mapError (failureOf dir named) := by
  obtain ⟨st', hdisk, -, hrun⟩ := run_loadConfig hshows hshows.keeps dir named global st
  rw [hrun, Disk.config, ← hdisk, ← Config.run_ofChosen hshows]
  rfl

/-! ### What is read -/

/-- The search reads no file. -/
theorem Machine.keeps_filesRead (w : Machine) : w.host.Keeps filesRead where
  isFile path asked := by
    show filesRead (asked ++ [.isFile path]) = _
    rw [filesRead_append]
    exact List.append_nil _
  log _ _ _ := rfl

theorem Machine.filesRead_ofChosen (w : Machine) (chosen : Option String) (asked : List Request) :
    filesRead ((Config.ofChosen w.host chosen).run asked).2 = filesRead asked ++ chosen.toList := by
  cases chosen with
  | none => exact (List.append_nil _).symm
  | some path =>
    rw [Config.ofChosen, Config.ofFile_eq_map]
    show filesRead (asked ++ [.readFile path]) = _
    rw [filesRead_append, filesRead_readFile]
    rfl

/-! ### The main statement -/

/-- One file decides the configuration of a check: the one that is named, or the first candidate at
which there is a file; without one the default holds. What stands at other places has no influence,
a deciding file that cannot be read is an error, and no other file is read. -/
theorem loadConfig_decided_by_one_file {σ : Type} {host : Host (StateM σ)} {disk : σ → Disk}
    (hshows : host.Shows disk) (dir : String) (named global : Option String) (st : σ) :
    let load := fun st => ((Program.loadConfig host dir named global).run st).1
    load st = ((disk st).config dir named global).mapError (Program.failureOf dir named) ∧
    ((Config.discover host dir global).run st).1 = (disk st).config dir none global ∧
    (∀ st', (∀ path ∈ (disk st).consulted dir named global, disk st' path = disk st path) →
      load st' = load st) ∧
    (∀ path, (disk st).chosen dir named global = some path →
      (∀ text, (disk st path).read = .ok text → Config.parse? text = none) →
        ∃ e, load st = .error e) ∧
    ∀ w : Machine, w.host.Shows (fun _ => disk st) → ∀ asked,
      filesRead ((Program.loadConfig w.host dir named global).run asked).2 =
        filesRead asked ++ ((disk st).chosen dir named global).toList := by
  intro load
  have hload : ∀ st, load st =
      ((disk st).config dir named global).mapError (Program.failureOf dir named) :=
    Program.fst_run_loadConfig hshows dir named global
  refine ⟨hload st, ?_, ?_, ?_, ?_⟩
  · obtain ⟨st', hdisk, -, hrun⟩ := Config.run_discover hshows hshows.keeps dir global st
    rw [hrun, Disk.config, ← hdisk, ← Config.run_ofChosen hshows]
  · intro st' hagree
    rw [hload, hload, Disk.config_eq_of_consulted hagree]
  · intro path hpath hbroken
    obtain ⟨e, he⟩ := Disk.config_eq_error hpath hbroken
    exact ⟨Program.failureOf dir named e, by rw [hload, he]; rfl⟩
  · intro w hw asked
    obtain ⟨asked', -, hkept, hrun⟩ :=
      Program.run_loadConfig hw w.keeps_filesRead dir named global asked
    rw [hrun, ← hkept, ← w.filesRead_ofChosen]
    rfl

/-- A project with a directory in the place of the first candidate and no text in the second one;
there is a valid configuration in the global directory. -/
def brokenProject : Workspace where
  files := ⟨[(["p"], .directory), (["p", "docklint.toml"], .directory),
    (["p", ".docklint.toml"], .file ⟨#[0xff]⟩),
    (["g"], .directory), (["g", "config.toml"], .file "ignored = [\"DL3007\"]".toUTF8)]⟩
  cwd := ["p"]
  bin := []

theorem loadConfig_brokenProject :
    (brokenProject.files.disk ["p"]).chosen "/p" none (some "/g") = some "/p/.docklint.toml" ∧
    ((brokenProject.files.disk ["p"] "/g/config.toml").read.toOption.bind Config.parse?).map
      Config.ignored =
      some ["DL3007"] ∧
    ∃ e, ((Program.loadConfig (Workspace.host fun _ _ => none) "/p" none (some "/g")).run
      brokenProject).1 =
      .error e := by
  have hchosen : (brokenProject.files.disk ["p"]).chosen "/p" none (some "/g") =
      some "/p/.docklint.toml" := by
    decide +kernel
  have hread : (brokenProject.files.disk ["p"] "/p/.docklint.toml").read.toOption = none := by
    decide +kernel
  refine ⟨hchosen, by decide +kernel, ?_⟩
  refine (loadConfig_decided_by_one_file (Workspace.shows fun _ _ => none) "/p" none
    (some "/g") brokenProject).2.2.2.1
    _ hchosen fun text htext => ?_
  cases (congrArg Except.toOption htext).symm.trans hread

end DockerfileLint
