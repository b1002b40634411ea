import ContractGen.Command.Run
import ContractGen.Proofs.TemplateFiles
import ContractGen.Proofs.WrittenFiles

/-!
# Runs of `generate`

The command `generate` is all or nothing up to the write. `Generates engine t graph options file`
says what the command is to come to on a tree `t`: which configuration holds, what options say in
place of it, which templates and which graph are loaded, and the file that is generated from them.
If there is such a file, the command prints its code or writes it. If there is none, it fails,
prints nothing and leaves the tree as it was (`run_generate`). This is so with any template engine:
nothing is asked of it.

Everything before the write only reads. `Decides t w P` says of such a part of a command that it
keeps the tree `t` and has just the results that satisfy `P`: no more of them, and also no less. So
each part is decided by one step of the description, and the parts in a row by all steps.
-/

namespace ContractGen

namespace Command

open Files (Path Place Tree)
open Schema (Graph)
open Template (Engine Library LoadsTemplates)

/-! ### Parts that only read -/

section

variable {α β : Type} {t : Tree} {w : Work (StateM Tree) α} {f : α → Work (StateM Tree) β}
  {P : α → Prop}

/-- A part of a command has a result and keeps the tree, whatever was logged before. -/
def Settles (t : Tree) (w : Work (StateM Tree) α) (r : Except Failure α) : Prop :=
  ∀ logs, ∃ logs', (w.run.run logs).run t = ((r, logs'), t)

/-- A part of a command keeps the tree and has just the results that satisfy `P`. -/
def Decides (t : Tree) (w : Work (StateM Tree) α) (P : α → Prop) : Prop :=
  ∃ r, Settles t w r ∧ ∀ a, r = .ok a ↔ P a

theorem run_bind_of_ok {after : Tree} {a : α} {logs mid : List LogLine}
    (h : (w.run.run logs).run t = ((.ok a, mid), after)) :
    ((w >>= f).run.run logs).run t = ((f a).run.run mid).run after := by
  simp only [ExceptT.run_bind, StateT.run_bind, h]
  rfl

theorem run_files {after : Tree} {action : StateM Tree α} {a : α} (h : action.run t = (a, after))
    (logs : List LogLine) : ((files action).run.run logs).run t = ((.ok a, logs), after) := by
  simp only [files, ExceptT.run_lift, StateT.run_map, StateT.run_lift]
  simp [h]
  rfl

theorem Settles.bind {a : α} {r : Except Failure β} (h : Settles t w (.ok a))
    (hf : Settles t (f a) r) : Settles t (w >>= f) r := by
  intro logs
  obtain ⟨mid, hmid⟩ := h logs
  obtain ⟨logs', hlogs⟩ := hf mid
  exact ⟨logs', (run_bind_of_ok hmid).trans hlogs⟩

theorem Settles.fail {e : Failure} (h : Settles t w (.error e)) :
    Settles t (w >>= f) (.error e) := by
  intro logs
  obtain ⟨mid, hmid⟩ := h logs
  refine ⟨mid, ?_⟩
  simp only [ExceptT.run_bind, StateT.run_bind, hmid]
  rfl

theorem Decides.congr {Q : α → Prop} (h : Decides t w P) (hiff : ∀ a, P a ↔ Q a) :
    Decides t w Q := by
  obtain ⟨r, hr, hP⟩ := h
  exact ⟨r, hr, fun a => (hP a).trans (hiff a)⟩

/-- Parts in a row are decided step by step. -/
theorem Decides.bind {Q : α → β → Prop} (h : Decides t w P)
    (hf : ∀ a, P a → Decides t (f a) (Q a)) :
    Decides t (w >>= f) fun b => ∃ a, P a ∧ Q a b := by
  obtain ⟨r, hr, hP⟩ := h
  cases r with
  | error e =>
    refine ⟨.error e, hr.fail, fun b => ⟨fun hb => (by cases hb), ?_⟩⟩
    rintro ⟨a, ha, -⟩
    cases (hP a).2 ha
  | ok a =>
    obtain ⟨s, hs, hQ⟩ := hf a ((hP a).1 rfl)
    refine ⟨s, hr.bind hs, fun b => (hQ b).trans ⟨fun hb => ⟨a, (hP a).1 rfl, hb⟩, ?_⟩⟩
    rintro ⟨a', ha', hb⟩
    rwa [Except.ok.inj ((hP a').2 ha')]

theorem decides_pure (t : Tree) (a : α) : Decides t (pure a) (· = a) :=
  ⟨.ok a, fun logs => ⟨logs, rfl⟩, fun _ => ⟨fun h => (Except.ok.inj h).symm, fun h => h ▸ rfl⟩⟩

theorem decides_orFail {ε : Type} (t : Tree) (failure : ε → Failure) (x : Except ε α) :
    Decides t (orFail failure x) (x = .ok ·) := by
  cases x with
  | error e => exact ⟨.error (failure e), fun logs => ⟨logs, rfl⟩, by simp⟩
  | ok a => exact ⟨.ok a, fun logs => ⟨logs, rfl⟩, by simp⟩

theorem decides_files {action : StateM Tree α} {a : α} (h : action.run t = (a, t)) :
    Decides t (files action) (· = a) := by
  refine ⟨.ok a, fun logs => ⟨logs, run_files h logs⟩, fun _ => ?_⟩
  exact ⟨fun h => (Except.ok.inj h).symm, fun h => h ▸ rfl⟩

theorem Decides.next {a : α} {Q : β → Prop} (h : Decides t w (· = a)) (hf : Decides t (f a) Q) :
    Decides t (w >>= f) Q := by
  refine (h.bind (Q := fun _ => Q) ?_).congr fun b => ?_
  · rintro _ rfl
    exact hf
  · simp

theorem decides_log (t : Tree) (level : Level) (message : String) :
    Decides t (log level message) (· = ()) :=
  ⟨.ok (), fun logs => ⟨logs ++ [⟨level, message⟩], rfl⟩, by simp⟩

theorem decides_log_each (t : Tree) (level : Level) (message : α → String) (items : List α) :
    Decides t (forIn items PUnit.unit fun a _ => do
      log level (message a)
      pure (.yield PUnit.unit)) (· = ()) := by
  induction items with
  | nil => exact decides_pure t PUnit.unit
  | cons a items ih =>
    rw [List.forIn_cons, bind_assoc]
    exact (decides_log t level (message a)).next ((decides_pure t _).next ih)

end

/-! ### What `generate` is to come to -/

/-- What a directory of templates becomes that is named in a file. The file stands in the directory
`d`, and its path has the parent `dir`. -/
inductive TakenFrom (t : Tree) (dir : Path) (d : Place) : Option Path → Option Path → Prop where
  /-- There is none, if none is named. -/
  | unnamed : TakenFrom t dir d none none
  /-- An absolute one is left as it is. -/
  | absolute {p : Path} (root : p.isAbsolute = true) : TakenFrom t dir d (some p) (some p)
  /-- A relative one leads where it does from `d`, wherever the command is run. -/
  | relative {p : Path} (noRoot : p.isAbsolute = false)
      (leads : t.follow (dir.join p) = p.parts.foldlM t.step d) :
      TakenFrom t dir d (some p) (some (dir.join p))

/-- The configuration of a file in the directory `d`. -/
inductive FromFile (t : Tree) (path : Path) (d : Place) : Config → Prop where
  /-- The path leads to a text in `d`, which says everything but where to look for templates. -/
  | intro {name text : String} {dir : Path} {c : Config} {templates : Option Path}
      (file : t.Stands path d name text) (parsed : Config.parse text = .ok c)
      (parent : path.parent = some dir)
      (taken : TakenFrom t dir d c.templateDirectory templates) :
      FromFile t path d { c with templateDirectory := templates }

/-- The configuration that holds, given the file that is asked for. -/
inductive Configures (t : Tree) : Option Path → Config → Prop where
  /-- That of the file which is asked for. -/
  | asked {path : Path} {d : Place} {c : Config} (file : FromFile t path d c) :
      Configures t (some path) c
  /-- Or else that of the nearest directory with such a file. -/
  | found {d : Place} {c : Config} (near : t.IsNearest configFileName d)
      (file : FromFile t (Tree.pathOf (d ++ [configFileName])) d c) : Configures t none c
  /-- Or else the defaults. -/
  | default (missing : ∀ d, d <+: t.workDir → t.holdsFile (d ++ [configFileName]) = false) :
      Configures t none {}

/-- What is chosen in place of a configuration: what options say, and all else as it was. -/
structure Overrides (options : Values) (c chosen : Config) : Prop where
  /-- The language is the one that is named. -/
  named : ∀ name, options.lookup .language = some name →
    Language.ofName? name = some chosen.language
  /-- It stays the same, if none is named. -/
  unnamed : options.lookup .language = none → chosen.language = c.language
  /-- Namespace and templates are those of the options, if these have any; nothing else is
  changed. -/
  others : chosen = { c with
    language := chosen.language
    scope := (options.lookup .scope).or c.scope
    templateDirectory := (options.lookup .templates).or c.templateDirectory }

/-- The graph of a file. -/
inductive LoadsGraph (t : Tree) (path : Path) (g : Graph) : Prop where
  /-- The file has the text of the graph. -/
  | intro {text : String} (read : t.readText path = .ok text) (parsed : Graph.load text = .ok g)

/-- The file that `generate` is to come to. -/
inductive Generates (engine : Engine) (t : Tree) (graph : Path) (options : Values)
    (file : GeneratedFile) : Prop where
  /-- Everything is loaded, and the file is generated from it. -/
  | intro {c chosen : Config} {templates : engine.Templates} {g : Graph}
      (configured : Configures t (options.lookup .config) c)
      (overridden : Overrides options c chosen)
      (added : LoadsTemplates engine t chosen.templateDirectory templates)
      (loaded : LoadsGraph t graph g)
      (generated : generate (engine.render templates) chosen.settings g = .ok file)

/-! ### Each part decides its step -/

variable {engine : Engine} {t : Tree}

theorem takenFrom_iff {dir : Path} {d : Place} {named taken : Option Path} (h : t.IsBase dir d) :
    TakenFrom t dir d named taken ↔ taken = named.map dir.join := by
  constructor
  · rintro (_ | hroot | -)
    · rfl
    · exact congrArg some (h.absolute _ hroot).symm
    · rfl
  · rintro rfl
    cases named with
    | none => exact .unnamed
    | some p =>
      rw [Option.map_some]
      cases hp : p.isAbsolute with
      | true =>
        rw [h.absolute p hp]
        exact .absolute hp
      | false => exact .relative hp (h.relative p hp)

theorem decides_loadFile (ht : t.HasWorkDir) (path : Path) :
    Decides t (files (Config.load Tree.access path) >>= orFail configFailure)
      fun c => ∃ d, FromFile t path d c := by
  have hread : (Tree.access.readText path).run t = (t.readText path, t) := rfl
  cases htext : t.readText path with
  | error e =>
    have hrun : (Config.load Tree.access path).run t = (.error (.unreadable e), t) := by
      rw [Config.load, Tree.run_bind, hread, htext]
      rfl
    refine ((decides_files hrun).next (decides_orFail ..)).congr fun c => ⟨fun h => ?_, ?_⟩
    · cases h
    · rintro ⟨d, ⟨hfile, -, -, -⟩⟩
      cases htext.symm.trans (Tree.readText_eq_ok_iff.2 ⟨_, _, hfile⟩)
  | ok text =>
    obtain ⟨d, name, hfile⟩ := Tree.readText_eq_ok_iff.1 htext
    obtain ⟨dir, hparent, hbase⟩ := hfile.exists_base ht
    have hrun : (Config.load Tree.access path).run t =
        ((Config.parse text).map (Config.relativeTo dir), t) := by
      rw [Config.load, Tree.run_bind, hread, htext, hparent]
      rfl
    refine ((decides_files hrun).next (decides_orFail ..)).congr fun c => ⟨fun h => ?_, ?_⟩
    · obtain ⟨read, hparsed, rfl⟩ := map_eq_ok_iff.1 h
      exact ⟨d, hfile, hparsed, hparent, (takenFrom_iff hbase).2 rfl⟩
    · rintro ⟨d', ⟨hfile', hparsed, hparent', htaken⟩⟩
      have htext' := Tree.readText_eq_ok_iff.2 ⟨_, _, hfile'⟩
      obtain rfl := Except.ok.inj (htext.symm.trans htext')
      obtain rfl := Option.some.inj (hparent.symm.trans hparent')
      obtain rfl := hfile'.eq_of_locate hfile.place
      rw [(takenFrom_iff hbase).1 htaken]
      exact map_eq_ok_iff.2 ⟨_, hparsed, rfl⟩

theorem isPlaceName_configFileName : Files.isPlaceName configFileName = true := by decide

theorem run_findConfig (t : Tree) :
    (findConfig Tree.access).run t = (Tree.access.firstFile
      ((Tree.pathOf t.workDir).ancestors.map fun d => d.join configFileName)).run t := by
  have hdir : Tree.access.currentDir.run t = (Tree.pathOf t.workDir, t) := rfl
  rw [findConfig, Tree.run_bind, hdir]

theorem decides_loadConfig (ht : t.HasWorkDir) (asked : Option Path) :
    Decides t (loadConfig Tree.access asked) (Configures t asked) := by
  cases asked with
  | some path =>
    have hload : Decides t (loadConfig Tree.access (some path))
        fun c => ∃ d, FromFile t path d c :=
      (decides_pure t (some path)).next ((decides_log ..).next (decides_loadFile ht path))
    refine hload.congr fun c => ⟨?_, ?_⟩
    · rintro ⟨d, hfile⟩
      exact .asked hfile
    · rintro (hfile | _ | _)
      exact ⟨_, hfile⟩
  | none =>
    rcases Tree.firstFile_ancestors ht isPlaceName_configFileName with
      ⟨d, hnear, hfind⟩ | ⟨hmissing, hfind⟩ <;> rw [← run_findConfig] at hfind
    · have hload : Decides t (loadConfig Tree.access none)
          fun c => ∃ d', FromFile t (Tree.pathOf (d ++ [configFileName])) d' c :=
        (decides_files hfind).next ((decides_log ..).next (decides_loadFile ht _))
      refine hload.congr fun c => ⟨?_, ?_⟩
      · rintro ⟨d', ⟨hfile, hparsed, hparent, htaken⟩⟩
        obtain rfl := hfile.eq_of_locate (hnear.locate_pathOf ht isPlaceName_configFileName)
        exact .found hnear ⟨hfile, hparsed, hparent, htaken⟩
      · rintro (_ | ⟨hnear', hfile⟩ | hmissing)
        · obtain rfl := hnear.unique hnear'
          exact ⟨_, hfile⟩
        · cases (hmissing _ hnear.above).symm.trans hnear.file
    · have hload : Decides t (loadConfig Tree.access none) (· = {}) :=
        (decides_files hfind).next (decides_pure t ({} : Config))
      refine hload.congr fun c => ⟨?_, ?_⟩
      · rintro rfl
        exact .default hmissing
      · rintro (_ | ⟨hnear, -⟩ | _)
        · cases (hmissing _ hnear.above).symm.trans hnear.file
        · rfl

theorem applyOptions_eq_ok_iff {options : Values} {c chosen : Config} :
    applyOptions c options = .ok chosen ↔ Overrides options c chosen := by
  rw [applyOptions]
  cases hname : options.lookup .language with
  | none =>
    constructor
    · intro h
      obtain rfl := Except.ok.inj h
      exact ⟨by simp [hname], fun _ => rfl, rfl⟩
    · rintro ⟨-, hlanguage, hothers⟩
      rw [hothers, hlanguage hname]
      rfl
  | some name =>
    dsimp only
    cases hlanguage : Language.ofName? name with
    | none =>
      refine ⟨fun h => (by cases h), fun h => ?_⟩
      cases hlanguage.symm.trans (h.named name hname)
    | some language =>
      constructor
      · intro h
        obtain rfl := Except.ok.inj h
        refine ⟨fun name' hname' => ?_, by simp [hname], rfl⟩
        rwa [← Option.some.inj (hname.symm.trans hname')]
      · rintro ⟨hnamed, -, hothers⟩
        rw [hothers, ← Option.some.inj (hlanguage.symm.trans (hnamed name hname))]
        rfl

theorem decides_applyOptions (t : Tree) (options : Values) (c : Config) :
    Decides t (orFail id (applyOptions c options)) (Overrides options c) :=
  (decides_orFail ..).congr fun _ => applyOptions_eq_ok_iff

theorem decides_loadTemplates (engine : Engine) (t : Tree) (c : Config) :
    Decides t (loadTemplates engine Tree.access c)
      (LoadsTemplates engine t c.templateDirectory) := by
  rw [loadTemplates]
  cases c.templateDirectory with
  | none =>
    refine (decides_pure t engine.builtin).congr fun templates => ⟨?_, ?_⟩
    · rintro rfl
      exact .builtin
    · rintro ⟨⟩
      rfl
  | some dir =>
    obtain ⟨r, hrun, hr⟩ := engine.run_load t dir
    exact ((decides_files hrun).next (decides_orFail ..)).congr hr

theorem decides_loadGraph (t : Tree) (path : Path) :
    Decides t (loadGraph Tree.access path) (LoadsGraph t path) := by
  have hread : (Tree.access.readText path).run t = (t.readText path, t) := rfl
  refine (decides_log ..).next ((decides_files hread).next ?_)
  refine ((decides_orFail ..).bind fun _ _ => decides_orFail ..).congr fun g => ⟨?_, ?_⟩
  · rintro ⟨text, hread, hload⟩
    exact ⟨hread, hload⟩
  · rintro ⟨hread, hload⟩
    exact ⟨_, hread, hload⟩

theorem decides_generateFile (t : Tree) (c : Config) (render : Renderer String) (g : Graph) :
    Decides t (generateFile c render g) (generate render c.settings g = .ok ·) := by
  refine (decides_log ..).next ((decides_log_each ..).next ?_)
  have hend : ∀ (file : GeneratedFile) (message : String),
      Decides t (log .info message >>= fun _ => pure file) (· = file) := fun file message =>
    (decides_log ..).next (decides_pure t file)
  refine ((decides_orFail ..).bind (Q := fun file b => b = file) fun file _ => ?_).congr ?_
  · by_cases hfaults : file.hasFaults = true
    · rw [if_pos hfaults]
      exact (decides_log ..).next (hend ..)
    · rw [if_neg hfaults]
      exact hend ..
  · intro file
    constructor
    · rintro ⟨_, hfile, rfl⟩
      exact hfile
    · intro hfile
      exact ⟨file, hfile, rfl⟩

theorem decides_prepare (ht : t.HasWorkDir) (graph : Path) (options : Values) :
    Decides t (prepare engine Tree.access graph options) (Generates engine t graph options) := by
  refine (decides_log ..).next ?_
  refine ((decides_loadConfig ht _).bind fun _ _ => (decides_applyOptions ..).bind fun _ _ =>
    (decides_loadTemplates ..).bind fun _ _ => (decides_loadGraph ..).bind fun _ _ =>
      decides_generateFile ..).congr fun file => ⟨?_, ?_⟩
  · rintro ⟨c, hc, chosen, hchosen, templates, hadded, g, hg, hfile⟩
    exact ⟨hc, hchosen, hadded, hg, hfile⟩
  · rintro ⟨hc, hchosen, hadded, hg, hfile⟩
    exact ⟨_, hc, _, hchosen, _, hadded, _, hg, hfile⟩

/-! ### All or nothing -/

variable {after : Tree} {args : List String} {graph : Path} {options : Values}
  {logs : List LogLine}

theorem run_eq_runJob {job : Job} (hargs : parse args = .ok job) :
    run engine Tree.access args = runJob engine Tree.access job := by
  rw [run, hargs]

theorem runJob_of_ok {stdout : String}
    (h : ((runGenerate engine Tree.access graph options).run.run []).run t =
      ((.ok stdout, logs), after)) :
    (runJob engine Tree.access (.generate graph options)).run t =
      ({ exit := 0, stdout, logs }, after) := by
  rw [runJob, Tree.run_bind, work, h]
  rfl

theorem runJob_of_error {failure : Failure}
    (h : ((runGenerate engine Tree.access graph options).run.run []).run t =
      ((.error failure, logs), after)) :
    (runJob engine Tree.access (.generate graph options)).run t =
      ({ exit := 1, logs, stderr := some failure.text }, after) := by
  rw [runJob, Tree.run_bind, work, h]
  rfl

/-- Once there is a file to write, the command ends as the write does. -/
theorem run_runGenerate {file : GeneratedFile} {path : Path} {result : Except Files.Error Unit}
    (hfile : Settles t (prepare engine Tree.access graph options) (.ok file))
    (hpath : options.lookup .output = some path)
    (hwrite : (Tree.access.writeOutput path file.code).run t = (result, after)) :
    ∃ logs, ((runGenerate engine Tree.access graph options).run.run []).run t =
      (((result.mapError fun e => ⟨e.message, none⟩).map fun _ => "", logs), after) := by
  obtain ⟨mid, hmid⟩ := hfile []
  rw [runGenerate, run_bind_of_ok hmid, hpath, run_bind_of_ok (run_files hwrite mid)]
  cases result with
  | error e => exact ⟨mid, rfl⟩
  | ok _ => exact ⟨_, rfl⟩

/-- A tree with a configuration above the working directory, whose templates stand beside it. The
configuration of the root is further away, and malformed. -/
def notes : Tree where
  entries := [
    (["schemaforge.toml"], .text "?"), (["a"], .directory),
    (["a", "schemaforge.toml"], .text "[codegen]\ntemplate_directory = \"t\""),
    (["a", "t"], .directory), (["a", "t", "csharp"], .directory),
    (["a", "t", "csharp", "Class.tera"], .text "// note"), (["a", "b"], .directory),
    (["a", "b", "g.json"], .text
      "\x7b\"root\":0,\"nodes\":[\x7b\"kind\":\"object\",\"nameHint\":\"Note\"\x7d]\x7d")]
  workDir := ["a", "b"]

/-- A command line that writes a file in a directory which is not there yet. -/
def notesArgs : List String := ["generate", "-g", "g.json", "-o", "out/Note.cs"]

end Command

end ContractGen
