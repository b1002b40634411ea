import ContractGen.Files.Tree
import ContractGen.Proofs.Outcomes
import Mathlib.Data.List.Infix

/-!
# Paths and places

Paths are texts and places are lists of names. For a place with proper names the two go together:
the path of a place has its names as parts (`Path.parts_names`), its parents are the paths of the
places above (`Path.ancestors_pathOf`), and following it through directories leads to the place
(`Tree.locate_pathOf`). So a search from the working directory up finds the nearest file of a name
(`Tree.firstFile_ancestors`).
-/

namespace ContractGen

namespace Text

theorem splitBy_eq_splitOnP (p : Char → Bool) (cs : List Char) : splitBy p cs = cs.splitOnP p := by
  induction cs with
  | nil => simp [splitBy]
  | cons c rest ih =>
    obtain ⟨part, parts, hparts⟩ := List.exists_cons_of_ne_nil (List.splitOnP_ne_nil p rest)
    rw [splitBy, ih, List.splitOnP_cons_eq_if_modifyHead, hparts]
    rfl

theorem length_splitBy_le (p : Char → Bool) (cs : List Char) :
    (splitBy p cs).length ≤ cs.length + 1 := by
  induction cs with
  | nil => simp [splitBy]
  | cons c rest ih =>
    rw [splitBy]
    split_ifs
    · simpa using ih
    · split
      · simp
      · rename_i part parts hparts
        simp only [hparts, List.length_cons] at ih ⊢
        omega

end Text

namespace Files

/-- Whether a text can be a name in a directory. -/
def isPlaceName (name : String) : Bool :=
  !Path.isIdle name && name != ".." && !name.toList.contains '/'

namespace Path

theorem isIdle_of_isPlaceName {name : String} (h : isPlaceName name = true) :
    isIdle name = false := by
  simp only [isPlaceName, Bool.and_eq_true, Bool.not_eq_true'] at h
  exact h.1.1

theorem ne_up_of_isPlaceName {name : String} (h : isPlaceName name = true) : name ≠ ".." := by
  rintro rfl
  exact absurd h (by decide)

theorem not_mem_of_isPlaceName {name : String} (h : isPlaceName name = true) :
    '/' ∉ name.toList := by
  simp only [isPlaceName, Bool.and_eq_true, Bool.not_eq_true'] at h
  simpa using h.2

/-! ### Parts -/

theorem parts_append (a b : Path) : parts (a ++ "/" ++ b) = parts a ++ parts b := by
  have hchars : (a ++ "/" ++ b).toList = a.toList ++ '/' :: b.toList := by simp
  simp only [parts, Text.splitBy_eq_splitOnP, hchars]
  rw [List.splitOnP_append_cons _ _ (by decide), List.map_append]

theorem parts_slash (p : Path) : parts ("/" ++ p) = "" :: parts p := by
  have hempty : parts "" = [""] := rfl
  simpa [hempty] using parts_append "" p

theorem parts_of_not_mem {name : String} (h : '/' ∉ name.toList) : parts name = [name] := by
  have hnone : ∀ c ∈ name.toList, (c == '/') = false := by
    intro c hc
    rw [beq_eq_false_iff_ne]
    rintro rfl
    exact h hc
  simp [parts, Text.splitBy_eq_splitOnP, List.splitOnP_eq_singleton hnone]

/-- Names joined with slashes are the parts of the path. -/
theorem parts_intercalate {names : List String} (h : ∀ name ∈ names, '/' ∉ name.toList)
    (hne : names ≠ []) : parts (String.intercalate "/" names) = names := by
  induction names with
  | nil => exact absurd rfl hne
  | cons name names ih =>
    have hname := parts_of_not_mem (h name List.mem_cons_self)
    cases names with
    | nil => simpa using hname
    | cons next names =>
      rw [String.intercalate_cons_cons, parts_append, hname,
        ih (fun n hn => h n (List.mem_cons_of_mem _ hn)) (by simp)]
      rfl

/-! ### Parents -/

theorem dropIdleEnd_of_names {names : List String} (h : ∀ name ∈ names, isPlaceName name = true) :
    dropIdleEnd names = names := by
  have hnone : names.reverse.dropWhile isIdle = names.reverse := by
    cases hlast : names.reverse with
    | nil => rfl
    | cons last before =>
      have hmem : last ∈ names := List.mem_reverse.1 (hlast ▸ List.mem_cons_self)
      exact List.dropWhile_cons_of_neg (by simp [isIdle_of_isPlaceName (h last hmem)])
  rw [dropIdleEnd, hnone, List.reverse_reverse]

theorem splitStart_slash (p : Path) : splitStart ("/" ++ p) = ("/", p) := by
  have hchars : ("/" ++ p).toList = '/' :: p.toList := by simp
  rw [splitStart, hchars]
  simp

theorem parent_pathOf_nil : parent (Tree.pathOf []) = none := rfl

theorem parts_names {place : Place} (h : ∀ name ∈ place, isPlaceName name = true)
    (hne : place ≠ []) : parts (String.intercalate "/" place) = place :=
  parts_intercalate (fun name hname => not_mem_of_isPlaceName (h name hname)) hne

theorem parent_pathOf {place : Place} {name : String}
    (h : ∀ n ∈ place ++ [name], isPlaceName n = true) :
    parent (Tree.pathOf (place ++ [name])) = some (Tree.pathOf place) := by
  have hplace := dropIdleEnd_of_names fun n hn => h n (List.mem_append_left [name] hn)
  simp only [parent, Tree.pathOf, splitStart_slash, parts_names h (by simp),
    dropIdleEnd_of_names h, List.reverse_append, List.reverse_singleton, List.singleton_append,
    List.reverse_reverse, hplace]

theorem length_le_pathOf {place : Place} (h : ∀ name ∈ place, isPlaceName name = true) :
    place.length ≤ (Tree.pathOf place).length := by
  by_cases hne : place = []
  · simp [hne]
  · have hparts := Text.length_splitBy_le (· == '/') (String.intercalate "/" place).toList
    have hnames := congrArg List.length (parts_names h hne)
    rw [parts, List.length_map] at hnames
    rw [hnames, String.length_toList] at hparts
    have hslash : "/".length = 1 := rfl
    rw [Tree.pathOf, String.length_append, hslash]
    omega

theorem parents_pathOf {place : Place} (h : ∀ name ∈ place, isPlaceName name = true) {n : Nat}
    (hn : place.length ≤ n) :
    Tree.pathOf place :: parents n (Tree.pathOf place) = place.inits.reverse.map Tree.pathOf := by
  induction place using List.reverseRecOn generalizing n with
  | nil =>
    cases n <;> simp [parents, parent_pathOf_nil]
  | append_singleton place name ih =>
    obtain ⟨n, rfl⟩ : ∃ m, n = m + 1 := ⟨n - 1, by simp at hn; omega⟩
    have hplace := ih (fun x hx => h x (List.mem_append_left [name] hx)) (n := n)
      (by simpa using hn)
    simp [parents, parent_pathOf h, hplace, List.inits_append]

theorem ancestors_pathOf {place : Place} (h : ∀ name ∈ place, isPlaceName name = true) :
    ancestors (Tree.pathOf place) = place.inits.reverse.map Tree.pathOf :=
  parents_pathOf h (length_le_pathOf h)

theorem pathOf_snoc (place : Place) (name : String) :
    Tree.pathOf (place ++ [name]) =
      (if place = [] then "" else Tree.pathOf place) ++ "/" ++ name := by
  have hsnoc : ∀ first (names : List String), String.intercalate "/" (first :: names ++ [name]) =
      String.intercalate "/" (first :: names) ++ "/" ++ name := by
    intro first names
    induction names generalizing first with
    | nil => simp
    | cons second names ih =>
      rw [List.cons_append, List.cons_append, String.intercalate_cons_cons, ← List.cons_append, ih,
        String.intercalate_cons_cons]
      simp only [String.append_assoc]
  cases place with
  | nil => simp [Tree.pathOf]
  | cons first names =>
    rw [Tree.pathOf, hsnoc, if_neg (by simp), Tree.pathOf]
    simp only [String.append_assoc]

theorem getLast?_pathOf {place : Place} (h : ∀ n ∈ place, isPlaceName n = true)
    (hne : place ≠ []) : (Tree.pathOf place).toList.getLast? ≠ some '/' := by
  obtain ⟨before, last, rfl⟩ := (List.eq_nil_or_concat' place).resolve_left hne
  have hlast := h last (by simp)
  have hsome : last.toList ≠ [] := by
    intro hnil
    have hidle := isIdle_of_isPlaceName hlast
    simp [isIdle, String.toList_eq_nil_iff.1 hnil] at hidle
  rw [pathOf_snoc, String.toList_append, List.getLast?_append_of_ne_nil _ hsome]
  exact fun heq => not_mem_of_isPlaceName hlast (List.mem_of_getLast? heq)

theorem join_pathOf {place : Place} {name : String}
    (h : ∀ n ∈ place ++ [name], isPlaceName n = true) :
    join (Tree.pathOf place) name = Tree.pathOf (place ++ [name]) := by
  have habsolute : isAbsolute name = false := by
    have hslash := not_mem_of_isPlaceName (h name (by simp))
    rw [isAbsolute, beq_eq_false_iff_ne]
    exact fun hhead => hslash (List.mem_of_head? hhead)
  have hsome : (Tree.pathOf place).isEmpty = false := by simp [Tree.pathOf]
  rw [join, habsolute, hsome, pathOf_snoc]
  by_cases hne : place = []
  · subst hne
    rfl
  · have hlast := getLast?_pathOf (fun n hn => h n (List.mem_append_left [name] hn)) hne
    rw [if_neg hne, if_neg (by simp), if_neg (by simpa using hlast)]

end Path

namespace Tree

variable {t : Tree} {place : Place} {name : String}

/-! ### Following paths -/

theorem step_idle {part : String} (hplace : t.at? place = some .directory)
    (hpart : Path.isIdle part = true) : t.step place part = .ok place := by
  simp [step, hplace, hpart]

theorem step_up (hplace : t.at? place = some .directory) :
    t.step place ".." = .ok place.dropLast := by
  have hidle : Path.isIdle ".." = false := by decide
  simp [step, hplace, hidle]

theorem step_name (hplace : t.at? place = some .directory) (hidle : Path.isIdle name = false)
    (hup : name ≠ "..") :
    t.step place name =
      if (t.at? (place ++ [name])).isSome then .ok (place ++ [name]) else .error .notFound := by
  simp [step, hplace, hidle, hup]

theorem step_of_isPlaceName (hplace : t.at? place = some .directory)
    (hname : isPlaceName name = true) :
    t.step place name =
      if (t.at? (place ++ [name])).isSome then .ok (place ++ [name]) else .error .notFound :=
  step_name hplace (Path.isIdle_of_isPlaceName hname) (Path.ne_up_of_isPlaceName hname)

/-- Everything that a step can do: it starts in a directory, and stays, goes up or goes down. -/
theorem step_cases {part : String} {next : Place} (h : t.step place part = .ok next) :
    t.at? place = some .directory ∧
      (Path.isIdle part = true ∧ next = place ∨
        part = ".." ∧ next = place.dropLast ∨
        Path.isIdle part = false ∧ part ≠ ".." ∧ (t.at? next).isSome = true ∧
          next = place ++ [part]) := by
  unfold step at h
  split at h
  · rename_i hplace
    refine ⟨hplace, ?_⟩
    split_ifs at h with hidle hup hsome
    · exact .inl ⟨hidle, (Except.ok.inj h).symm⟩
    · exact .inr (.inl ⟨hup, (Except.ok.inj h).symm⟩)
    · obtain rfl := Except.ok.inj h
      exact .inr (.inr ⟨by simpa using hidle, hup, hsome, rfl⟩)
  · cases h
  · cases h

theorem step_cases_idle {part : String} {next : Place} (hpart : Path.isIdle part = true)
    (h : t.step place part = .ok next) : t.at? place = some .directory ∧ next = place := by
  obtain ⟨hplace, ⟨-, hnext⟩ | ⟨rfl, -⟩ | ⟨hidle, -⟩⟩ := step_cases h
  · exact ⟨hplace, hnext⟩
  · cases hpart
  · cases hpart.symm.trans hidle

/-- Names lead to their place, if there are directories all the way. -/
theorem foldlM_step (hnames : ∀ n ∈ place, isPlaceName n = true)
    (hdirs : ∀ d, d <+: place → t.at? d = some .directory) :
    place.foldlM t.step [] = .ok place := by
  induction place using List.reverseRecOn with
  | nil => rfl
  | append_singleton place name ih =>
    have hbefore := ih (fun n hn => hnames n (List.mem_append_left [name] hn))
      fun d hd => hdirs d (hd.trans (List.prefix_append place [name]))
    have hplace := hdirs place (List.prefix_append place [name])
    have hlast := hdirs (place ++ [name]) List.prefix_rfl
    rw [List.foldlM_append, hbefore]
    show [name].foldlM t.step place = _
    rw [List.foldlM_cons, step_of_isPlaceName hplace (hnames name (by simp)), hlast]
    rfl

theorem partsFromRoot_pathOf (t : Tree) (hnames : ∀ n ∈ place, isPlaceName n = true)
    (hne : place ≠ []) : t.partsFromRoot (pathOf place) = "" :: place := by
  have habsolute : Path.isAbsolute (pathOf place) = true := by simp [Path.isAbsolute, pathOf]
  rw [partsFromRoot, habsolute, if_pos rfl, pathOf, Path.parts_slash, Path.parts_names hnames hne]

theorem locate_pathOf (hnames : ∀ n ∈ place ++ [name], isPlaceName n = true)
    (hdirs : ∀ d, d <+: place → t.at? d = some .directory) :
    t.locate (pathOf (place ++ [name])) =
      if (t.at? (place ++ [name])).isSome then .ok (place ++ [name]) else .error .notFound := by
  have hsome : (pathOf (place ++ [name])).isEmpty = false := by simp [pathOf]
  have hplace := foldlM_step (fun n hn => hnames n (List.mem_append_left [name] hn)) hdirs
  have hlast := step_of_isPlaceName (hdirs place List.prefix_rfl) (hnames name (by simp))
  rw [locate, hsome, partsFromRoot_pathOf t hnames (by simp), List.foldlM_cons, step_idle rfl rfl]
  show (place ++ [name]).foldlM t.step [] = _
  rw [List.foldlM_append, hplace]
  show [name].foldlM t.step place = _
  rw [List.foldlM_cons, hlast]
  split_ifs <;> rfl

theorem contentOf_pathOf (hnames : ∀ n ∈ place ++ [name], isPlaceName n = true)
    (hdirs : ∀ d, d <+: place → t.at? d = some .directory) :
    t.contentOf (pathOf (place ++ [name])) =
      (t.at? (place ++ [name])).elim (.error .notFound) .ok := by
  rw [contentOf, locate_pathOf hnames hdirs]
  cases hcontent : t.at? (place ++ [name]) with
  | none => rfl
  | some content => simp [bind, Except.bind, hcontent, pure, Except.pure]

/-! ### The nearest file -/

/-- Whether there is a file at a place. -/
def holdsFile (t : Tree) (place : Place) : Bool :=
  match t.at? place with
  | some .directory => false
  | some _ => true
  | none => false

/-- The working directory is there, and so is every directory above it. -/
structure HasWorkDir (t : Tree) : Prop where
  /-- Its names are proper. -/
  names : ∀ name ∈ t.workDir, isPlaceName name = true
  /-- There are directories all the way. -/
  directories : ∀ d, d <+: t.workDir → t.at? d = some .directory

theorem HasWorkDir.isPlaceName_of_mem (ht : t.HasWorkDir) (hname : isPlaceName name = true)
    {d : Place} (hd : d <+: t.workDir) : ∀ n ∈ d ++ [name], isPlaceName n = true := by
  intro n hn
  rcases List.mem_append.1 hn with hn | hn
  · exact ht.names n (hd.subset hn)
  · rwa [List.mem_singleton.1 hn]

/-- `d` is the nearest directory that has a file of a name, from the working directory up. -/
structure IsNearest (t : Tree) (name : String) (d : Place) : Prop where
  /-- It is the working directory or above that. -/
  above : d <+: t.workDir
  /-- It has the file. -/
  file : t.holdsFile (d ++ [name]) = true
  /-- Any other one with such a file is above it. -/
  nearest : ∀ e, e <+: t.workDir → t.holdsFile (e ++ [name]) = true → e <+: d

theorem IsNearest.unique {d e : Place} (hd : t.IsNearest name d) (he : t.IsNearest name e) :
    d = e := by
  have hle := (he.nearest d hd.above hd.file).length_le
  exact (hd.nearest e he.above he.file).eq_of_length_le hle |>.symm

theorem IsNearest.locate_pathOf (ht : t.HasWorkDir) (hname : isPlaceName name = true) {d : Place}
    (hd : t.IsNearest name d) : t.locate (pathOf (d ++ [name])) = .ok (d ++ [name]) := by
  have hsome : (t.at? (d ++ [name])).isSome = true := by
    cases hat : t.at? (d ++ [name]) with
    | some content => rfl
    | none => simpa [holdsFile, hat] using hd.file
  rw [Tree.locate_pathOf (ht.isPlaceName_of_mem hname hd.above)
    (fun e he => ht.directories e (he.trans hd.above)), if_pos hsome]

/-- Whether a path is a file. -/
def isFileAt (t : Tree) (p : Path) : Bool :=
  match t.contentOf p with
  | .ok .directory => false
  | .ok _ => true
  | .error _ => false

theorem run_bind {α β : Type} (action : StateM Tree α) (next : α → StateM Tree β) (t : Tree) :
    (action >>= next).run t = (next (action.run t).1).run (action.run t).2 := rfl

theorem run_firstFile (t : Tree) (paths : List Path) :
    (access.firstFile paths).run t = (paths.find? t.isFileAt, t) := by
  induction paths with
  | nil => rfl
  | cons p rest ih =>
    have hfile : (access.isFile p).run t = (t.isFileAt p, t) := rfl
    rw [Access.firstFile, run_bind, hfile, List.find?_cons]
    cases t.isFileAt p with
    | false => exact ih
    | true => rfl

theorem isFileAt_pathOf (hnames : ∀ n ∈ place ++ [name], isPlaceName n = true)
    (hdirs : ∀ d, d <+: place → t.at? d = some .directory) :
    t.isFileAt (pathOf (place ++ [name])) = t.holdsFile (place ++ [name]) := by
  rw [isFileAt, contentOf_pathOf hnames hdirs, holdsFile]
  cases t.at? (place ++ [name]) with
  | none => rfl
  | some content => cases content <;> rfl

theorem pairwise_inits (place : Place) : place.inits.Pairwise fun a b => a <+: b := by
  induction place with
  | nil => simp
  | cons name place ih => simp [List.pairwise_map, ih]

/-- From a place up, the first place with a property is the nearest one. -/
theorem nearest_of_find?_inits {p : Place → Bool} {d : Place}
    (h : place.inits.reverse.find? p = some d) :
    d <+: place ∧ p d = true ∧ ∀ e, e <+: place → p e = true → e <+: d := by
  obtain ⟨hd, nearer, further, hsplit, hnearer⟩ := List.find?_eq_some_iff_append.1 h
  have hmem : ∀ e, e ∈ nearer ++ d :: further ↔ e <+: place := by
    intro e
    rw [← hsplit]
    simp
  have hordered := List.pairwise_reverse.2 (pairwise_inits place)
  rw [hsplit, List.pairwise_append, List.pairwise_cons] at hordered
  refine ⟨(hmem d).1 (by simp), hd, fun e he hp => ?_⟩
  rcases List.mem_append.1 ((hmem e).2 he) with hnear | hfar
  · exact absurd hp (by simpa using hnearer e hnear)
  · rcases List.mem_cons.1 hfar with rfl | hfar
    · exact List.prefix_rfl
    · exact hordered.2.1.1 e hfar

/-- **The nearest file is found**, if there is one. -/
theorem firstFile_ancestors (ht : t.HasWorkDir) (hname : isPlaceName name = true) :
    (∃ d, t.IsNearest name d ∧
      (access.firstFile ((pathOf t.workDir).ancestors.map fun d => d.join name)).run t =
        (some (pathOf (d ++ [name])), t)) ∨
    (∀ d, d <+: t.workDir → t.holdsFile (d ++ [name]) = false) ∧
      (access.firstFile ((pathOf t.workDir).ancestors.map fun d => d.join name)).run t =
        (none, t) := by
  have hnames := fun d => ht.isPlaceName_of_mem hname (d := d)
  have hpaths : (pathOf t.workDir).ancestors.map (fun d => d.join name) =
      t.workDir.inits.reverse.map fun d => pathOf (d ++ [name]) := by
    rw [Path.ancestors_pathOf ht.names, List.map_map]
    refine List.map_congr_left fun d hd => Path.join_pathOf (hnames d ?_)
    simpa using hd
  have hfiles : ∀ d, d <+: t.workDir →
      t.isFileAt (pathOf (d ++ [name])) = t.holdsFile (d ++ [name]) := fun d hd =>
    isFileAt_pathOf (hnames d hd) fun e he => ht.directories e (he.trans hd)
  rw [run_firstFile, hpaths, List.find?_map]
  cases hfind : t.workDir.inits.reverse.find? (t.isFileAt ∘ fun d => pathOf (d ++ [name])) with
  | none =>
    refine .inr ⟨fun d hd => ?_, rfl⟩
    rw [← hfiles d hd]
    simpa using List.find?_eq_none.1 hfind d (by simpa using hd)
  | some d =>
    obtain ⟨hd, hfile, hnearest⟩ := nearest_of_find?_inits hfind
    refine .inl ⟨d, ⟨hd, (hfiles d hd).symm.trans hfile, fun e he heFile => ?_⟩, rfl⟩
    exact hnearest e he ((hfiles e he).trans heFile)

end Tree

end Files

end ContractGen
