import ContractGen.Proofs.RelativePaths
import ContractGen.Template.Overrides

/-!
# Templates of a directory

Which templates are loaded from a directory, said without the way they are loaded. The folder of the
language has template files, `NAME.tera`, and others. `TemplateFiles` has the names and texts of the
template files, in the order of the names of the files. What the texts mean is up to the engine: it
is given one after the other, and may refuse one (`LoadsTemplates`).

Loading finds just these templates and changes no file (`Engine.run_load`).
-/

namespace ContractGen

open Files (Path Tree)

/-! ### Names of template files -/

namespace Files.Path

theorem splitBy_dot (cs : List Char) : Text.splitBy (· == '.') cs = cs.splitOn '.' :=
  Text.splitBy_eq_splitOnP _ cs

theorem splitOn_append_dot (cs : List Char) {last : List Char} (h : '.' ∉ last) :
    (cs ++ '.' :: last).splitOn '.' = cs.splitOn '.' ++ [last] := by
  have hnone : ∀ c ∈ last, (c == '.') = false := by
    intro c hc
    rw [beq_eq_false_iff_ne]
    rintro rfl
    exact h hc
  rw [List.splitOn, List.splitOnP_append_cons _ _ (by decide), List.splitOnP_eq_singleton hnone]
  rfl

theorem toList_intercalate_dot (parts : List (List Char)) :
    (String.intercalate "." (parts.map String.ofList)).toList = ['.'].intercalate parts := by
  simp [String.toList_intercalate, Function.comp_def]

theorem eq_of_splitOn_eq {cs cs' : List Char} (h : cs.splitOn '.' = cs'.splitOn '.') : cs = cs' :=
  calc cs
    _ = ['.'].intercalate (cs.splitOn '.') := (List.intercalate_splitOn '.').symm
    _ = ['.'].intercalate (cs'.splitOn '.') := by rw [h]
    _ = cs' := List.intercalate_splitOn '.'

theorem intercalate_splitOn_dot (name : String) :
    String.intercalate "." ((name.toList.splitOn '.').map String.ofList) = name := by
  rw [← String.toList_inj, toList_intercalate_dot, List.intercalate_splitOn]

/-- A name has an extension if its last part is that, and not all before is an empty part. -/
theorem stem?_iff_splitOn {extension file name : String} :
    stem? extension file = some name ↔ ∃ parts, parts ≠ [] ∧ parts ≠ [[]] ∧
      file.toList.splitOn '.' = parts ++ [extension.toList] ∧
      name = String.intercalate "." (parts.map String.ofList) := by
  rw [stem?, splitBy_dot]
  constructor
  · intro hstem
    split at hstem
    · rename_i last before more hparts
      split_ifs at hstem with hcond
      obtain ⟨rfl, hblank⟩ := by simpa using hcond
      refine ⟨(before :: more).reverse, by simp, fun h => ?_, ?_, (Option.some.inj hstem).symm⟩
      · obtain ⟨rfl, rfl⟩ : before = [] ∧ more = [] := by simpa using congrArg List.reverse h
        simp at hblank
      · rw [String.toList_ofList, ← List.reverse_cons, ← hparts, List.reverse_reverse]
    · cases hstem
  · rintro ⟨parts, hne, hblank, hfile, rfl⟩
    obtain ⟨before, more, hparts⟩ := List.exists_cons_of_ne_nil (List.reverse_eq_nil_iff.not.2 hne)
    obtain rfl : parts = (before :: more).reverse := by rw [← hparts, List.reverse_reverse]
    have hcond : (more.isEmpty && before.isEmpty) = false := by
      by_contra hempty
      obtain ⟨rfl, rfl⟩ := by simpa using hempty
      exact hblank rfl
    rw [hfile, List.reverse_append, List.reverse_singleton, List.singleton_append, hparts]
    simp only [String.ofList_toList, hcond, decide_true, Bool.not_false, Bool.and_self, ↓reduceIte]

theorem stem?_eq_some_iff {extension file name : String} (h : '.' ∉ extension.toList) :
    stem? extension file = some name ↔ file = name ++ "." ++ extension ∧ name ≠ "" := by
  have hsplit : ∀ stem : String, (stem ++ "." ++ extension).toList.splitOn '.' =
      stem.toList.splitOn '.' ++ [extension.toList] := by
    intro stem
    rw [← splitOn_append_dot _ h]
    simp
  rw [stem?_iff_splitOn]
  constructor
  · rintro ⟨parts, hne, hblank, hfile, rfl⟩
    have hdots : ∀ part ∈ parts, '.' ∉ part := fun part hpart =>
      Text.not_mem_of_mem_splitBy (splitBy_dot _ ▸ hfile ▸ List.mem_append_left _ hpart) (by decide)
    have hparts :
        (String.intercalate "." (parts.map String.ofList)).toList.splitOn '.' = parts := by
      rw [toList_intercalate_dot, List.splitOn_intercalate '.' hdots hne]
    refine ⟨String.toList_inj.1 (eq_of_splitOn_eq ?_), fun hempty => hblank ?_⟩
    · rw [hsplit, hparts, hfile]
    · rw [← hparts, hempty]
      rfl
  · rintro ⟨rfl, hname⟩
    refine ⟨name.toList.splitOn '.', List.splitOn_ne_nil '.' _, fun hblank => hname ?_, hsplit name,
      (intercalate_splitOn_dot name).symm⟩
    rw [← intercalate_splitOn_dot name, hblank]
    rfl

end Files.Path

namespace Template

variable {t : Tree} {folder : Files.Path} {engine : Engine} {templates : engine.Templates}
  {files : List (String × String)} {names : List String}

/-! ### Which templates are loaded -/

/-- The name of the file of a template. -/
def fileName (name : String) : String := name ++ ".tera"

/-- The files of templates in a folder, as the names and texts of the templates. -/
structure TemplateFiles (t : Tree) (folder : Files.Path) (files : List (String × String)) :
    Prop where
  /-- They are all that have a name before the extension, among those of the folder. -/
  listed : ∃ names others, t.listDir folder = .ok names ∧
    names.Perm (files.map (fun file => fileName file.1) ++ others) ∧
    ∀ other ∈ others, ∀ name ≠ "", other ≠ fileName name
  /-- Their names are not empty. -/
  named : ∀ file ∈ files, file.1 ≠ ""
  /-- They stand in the order of the names of the files. -/
  ordered : (files.map fun file => fileName file.1).Pairwise (· ≤ ·)
  /-- Their texts can be read. -/
  read : ∀ file ∈ files, t.readText (folder.join (fileName file.1)) = .ok file.2

/-- The templates that are loaded, given their directory. -/
inductive LoadsTemplates (engine : Engine) (t : Tree) :
    Option Files.Path → engine.Templates → Prop where
  /-- Without a directory, the built-in ones. -/
  | builtin : LoadsTemplates engine t none engine.builtin
  /-- These also, if the directory has no folder for the language. -/
  | absent {dir : Files.Path} (missing : t.contentOf (dir.join "csharp") ≠ .ok .directory) :
      LoadsTemplates engine t (some dir) engine.builtin
  /-- Or else what becomes of them when all of the folder are added, one after the other. -/
  | overridden {dir : Files.Path} {files : List (String × String)} {templates : engine.Templates}
      (found : t.contentOf (dir.join "csharp") = .ok .directory)
      (listed : TemplateFiles t (dir.join "csharp") files)
      (added : files.foldlM (fun ts file => engine.add ts file.1 file.2) engine.builtin =
        some templates) :
      LoadsTemplates engine t (some dir) templates

/-! ### Files by name -/

theorem stem?_extension {file name : String} :
    Files.Path.stem? extension file = some name ↔ file = fileName name ∧ name ≠ "" := by
  rw [Files.Path.stem?_eq_some_iff (by decide), String.append_assoc]
  rfl

theorem fileName_injective : Function.Injective fileName := by
  intro a b h
  rw [fileName, fileName, ← String.toList_inj, String.toList_append, String.toList_append] at h
  exact String.toList_inj.1 (List.append_cancel_right h)

/-- Whether a file is that of a template. -/
def isTemplateFile (file : String) : Bool := (Files.Path.stem? extension file).isSome

theorem isTemplateFile_iff {file : String} :
    isTemplateFile file = true ↔ ∃ name, file = fileName name ∧ name ≠ "" := by
  simp only [isTemplateFile, Option.isSome_iff_exists, stem?_extension]

/-- The templates among the files of some names, with their texts, in the same order. -/
def Reads (t : Tree) (folder : Files.Path) (names : List String)
    (files : List (String × String)) : Prop :=
  files.map (fun file => fileName file.1) = names.filter isTemplateFile ∧
    ∀ file ∈ files, file.1 ≠ "" ∧ t.readText (folder.join (fileName file.1)) = .ok file.2

theorem reads_nil : Reads t folder [] files ↔ files = [] := by
  constructor
  · rintro ⟨hmap, -⟩
    simpa using hmap
  · rintro rfl
    exact ⟨rfl, by simp⟩

theorem reads_cons_of_none {file : String} (h : Files.Path.stem? extension file = none) :
    Reads t folder (file :: names) files ↔ Reads t folder names files := by
  rw [Reads, List.filter_cons_of_neg (by simp [isTemplateFile, h])]
  rfl

theorem reads_cons {name : String} (hname : name ≠ "") :
    Reads t folder (fileName name :: names) files ↔
      ∃ text more, files = (name, text) :: more ∧
        t.readText (folder.join (fileName name)) = .ok text ∧ Reads t folder names more := by
  rw [Reads, List.filter_cons_of_pos (isTemplateFile_iff.2 ⟨name, rfl, hname⟩)]
  constructor
  · rintro ⟨hmap, hfiles⟩
    obtain ⟨⟨first, text⟩, more, rfl, hfirst, hmore⟩ := List.map_eq_cons_iff.1 hmap
    obtain rfl := fileName_injective hfirst
    obtain ⟨⟨-, htext⟩, hfiles⟩ := List.forall_mem_cons.1 hfiles
    exact ⟨text, more, rfl, htext, hmore, hfiles⟩
  · rintro ⟨text, more, rfl, htext, hmore, hfiles⟩
    exact ⟨by rw [List.map_cons, hmore], List.forall_mem_cons.2 ⟨⟨hname, htext⟩, hfiles⟩⟩

/-- The files of templates are read in the order of all names. -/
theorem templateFiles_iff (h : t.listDir folder = .ok names) :
    TemplateFiles t folder files ↔
      Reads t folder (names.mergeSort fun a b => decide (a ≤ b)) files := by
  have hsorted : (names.mergeSort fun a b => decide (a ≤ b)).Pairwise (· ≤ ·) := by
    have hpairwise : (names.mergeSort fun a b => decide (a ≤ b)).Pairwise
        fun a b => decide (a ≤ b) = true :=
      List.pairwise_mergeSort (fun a b c => by simpa using String.le_trans)
        (fun a b => by simpa using String.le_total a b) names
    simpa using hpairwise
  have hperm := List.mergeSort_perm names fun a b => decide (a ≤ b)
  constructor
  · intro hfiles
    obtain ⟨names', others, hnames, hall, hothers⟩ := hfiles.listed
    obtain rfl := Except.ok.inj (h.symm.trans hnames)
    refine ⟨?_, fun file hfile => ⟨hfiles.named file hfile, hfiles.read file hfile⟩⟩
    have hnone : others.filter isTemplateFile = [] := by
      simp only [List.filter_eq_nil_iff, isTemplateFile_iff]
      rintro other hother ⟨name, heq, hname⟩
      exact hothers other hother name hname heq
    have hevery : (files.map fun file => fileName file.1).filter isTemplateFile =
        files.map fun file => fileName file.1 := by
      simp only [List.filter_eq_self, List.mem_map, isTemplateFile_iff]
      rintro _ ⟨file, hfile, rfl⟩
      exact ⟨file.1, rfl, hfiles.named file hfile⟩
    have hsame := (hperm.trans hall).filter isTemplateFile
    rw [List.filter_append, hnone, hevery, List.append_nil] at hsame
    exact hsame.symm.eq_of_pairwise (fun _ _ _ _ => String.le_antisymm) hfiles.ordered
      (hsorted.filter _)
  · rintro ⟨hmap, hfiles⟩
    refine ⟨⟨names, _, h, hperm.symm.trans (hmap ▸ (List.filter_append_perm _ _).symm), ?_⟩,
      fun file hfile => (hfiles file hfile).1, hmap ▸ hsorted.filter _,
      fun file hfile => (hfiles file hfile).2⟩
    rintro other hother name hname rfl
    have hno : isTemplateFile (fileName name) = false := by simpa using (List.mem_filter.1 hother).2
    rw [isTemplateFile_iff.2 ⟨name, rfl, hname⟩] at hno
    cases hno

/-! ### Loading -/

theorem Engine.run_loadFiles (engine : Engine) (t : Tree) (folder : Files.Path)
    (names : List String) (templates : engine.Templates) :
    ∃ r, (engine.loadFiles Tree.access folder templates names).run t = (r, t) ∧
      ∀ after, r = .ok after ↔ ∃ files, Reads t folder names files ∧
        files.foldlM (fun ts file => engine.add ts file.1 file.2) templates = some after := by
  induction names generalizing templates with
  | nil => exact ⟨.ok templates, rfl, fun after => by simp [reads_nil]⟩
  | cons file rest ih =>
    rw [Engine.loadFiles]
    cases hstem : Files.Path.stem? extension file with
    | none =>
      simp only [reads_cons_of_none hstem]
      exact ih templates
    | some name =>
      obtain ⟨rfl, hname⟩ := stem?_extension.1 hstem
      have hread : (Tree.access.readText (folder.join (fileName name))).run t =
        (t.readText (folder.join (fileName name)), t) := rfl
      simp only [reads_cons hname, Tree.run_bind, hread]
      cases htext : t.readText (folder.join (fileName name)) with
      | error e => exact ⟨.error (.unreadable _ e), rfl, fun after => by simp⟩
      | ok text =>
        simp only
        cases hadd : engine.add templates name text with
        | none =>
          refine ⟨.error (.malformed _), rfl, fun after => ⟨fun h => (by cases h), ?_⟩⟩
          rintro ⟨_, ⟨_, more, rfl, htext', -⟩, hadded⟩
          obtain rfl := Except.ok.inj htext'
          simp [hadd] at hadded
        | some added =>
          obtain ⟨r, hrun, hr⟩ := ih added
          refine ⟨r, hrun, fun after => (hr after).trans ⟨?_, ?_⟩⟩
          · rintro ⟨more, hmore, hadded⟩
            exact ⟨_, ⟨text, more, rfl, rfl, hmore⟩, by simp [hadd, hadded]⟩
          · rintro ⟨_, ⟨_, more, rfl, htext', hmore⟩, hadded⟩
            obtain rfl := Except.ok.inj htext'
            exact ⟨more, hmore, by simpa [hadd] using hadded⟩

/-- Whether a directory stands at a path. -/
def isDirAt (t : Tree) (p : Files.Path) : Bool :=
  match t.contentOf p with
  | .ok .directory => true
  | _ => false

theorem isDirAt_iff {p : Files.Path} :
    isDirAt t p = true ↔ t.contentOf p = .ok .directory := by
  unfold isDirAt
  split
  · rename_i hcontent
    simp [hcontent]
  · rename_i hother
    simpa using hother

theorem run_isDir (t : Tree) (p : Files.Path) :
    (Tree.access.isDir p).run t = (isDirAt t p, t) := rfl

/-- **Loading from a directory** keeps all files, and has just the templates of the directory. -/
theorem Engine.run_load (engine : Engine) (t : Tree) (dir : Files.Path) :
    ∃ r, (engine.load Tree.access dir).run t = (r, t) ∧
      ∀ templates, r = .ok templates ↔ LoadsTemplates engine t (some dir) templates := by
  have hfolderName : Language.csharp.folder = "csharp" := rfl
  have hlist : (Tree.access.listDir (dir.join "csharp")).run t =
    (t.listDir (dir.join "csharp"), t) := rfl
  rw [Engine.load, Tree.run_bind, hfolderName, run_isDir]
  by_cases hfolder : t.contentOf (dir.join "csharp") = .ok .directory
  · simp only [isDirAt_iff.2 hfolder, ↓reduceIte, Tree.run_bind, hlist]
    cases hnames : t.listDir (dir.join "csharp") with
    | error e =>
      refine ⟨.error (.unreadable _ e), rfl, fun templates => ⟨fun h => (by cases h), ?_⟩⟩
      rintro (_ | hmissing | ⟨-, ⟨⟨names, _, hlisted, -⟩, -⟩, -⟩)
      · exact absurd hfolder hmissing
      · rw [hnames] at hlisted
        cases hlisted
    | ok names =>
      obtain ⟨r, hrun, hr⟩ := engine.run_loadFiles t (dir.join "csharp")
        (names.mergeSort fun a b => decide (a ≤ b)) engine.builtin
      refine ⟨r, hrun, fun templates => (hr templates).trans ⟨?_, ?_⟩⟩
      · rintro ⟨files, hfiles, hadded⟩
        exact .overridden hfolder ((templateFiles_iff hnames).2 hfiles) hadded
      · rintro (_ | hmissing | ⟨-, hlisted, hadded⟩)
        · exact absurd hfolder hmissing
        · exact ⟨_, (templateFiles_iff hnames).1 hlisted, hadded⟩
  · rw [Bool.eq_false_iff.2 (isDirAt_iff.not.2 hfolder)]
    refine ⟨.ok engine.builtin, rfl, fun templates => ⟨?_, ?_⟩⟩
    · rintro ⟨⟩
      exact .absent hfolder
    · rintro (_ | _ | ⟨hfound, -, -⟩)
      · rfl
      · exact absurd hfound hfolder

end Template

end ContractGen
