import ContractGen.Proofs.Places

/-!
# Relative paths

A path that is not absolute is taken from somewhere. Joined to a path `dir`, it leads where it does
from the place of `dir` (`Tree.follow_join`). The parent of the path of a file is a path of the
directory that the file stands in (`Tree.Stands.exists_base`), so paths that are joined to the
parent are taken from beside the file.

Cutting a path drops idle parts with its last name. All other parts stay (`Path.exists_parent`),
and idle parts make no difference on the way to a directory (`Tree.foldlM_active`).
-/

namespace ContractGen

namespace Text

theorem not_mem_of_mem_splitBy {p : Char → Bool} {cs part : List Char} (h : part ∈ splitBy p cs)
    {c : Char} (hc : p c = true) : c ∉ part := by
  induction cs generalizing part with
  | nil => simp_all [splitBy]
  | cons d rest ih =>
    rw [splitBy] at h
    split_ifs at h with hd
    · rcases List.mem_cons.1 h with rfl | hrest
      · simp
      · exact ih hrest
    · have hne : c ≠ d := by
        rintro rfl
        exact hd hc
      split at h
      · simp_all
      · rename_i first parts hparts
        rw [hparts] at ih
        rcases List.mem_cons.1 h with rfl | hrest
        · simp [hne, ih List.mem_cons_self]
        · exact ih (List.mem_cons_of_mem first hrest)

end Text

namespace Files

namespace Path

/-! ### Parts of a path -/

theorem parts_ne_nil (p : Path) : parts p ≠ [] := by
  simp [parts, Text.splitBy_eq_splitOnP, List.splitOnP_ne_nil]

theorem exists_concat_parts (p : Path) : ∃ before last, parts p = before ++ [last] :=
  (List.eq_nil_or_concat' (parts p)).resolve_left (parts_ne_nil p)

theorem not_mem_of_mem_parts {p : Path} {part : String} (h : part ∈ parts p) :
    '/' ∉ part.toList := by
  obtain ⟨cs, hcs, rfl⟩ := List.mem_map.1 h
  rw [String.toList_ofList]
  exact Text.not_mem_of_mem_splitBy hcs rfl

theorem exists_of_isAbsolute {p : Path} (h : isAbsolute p = true) : ∃ rest, p = "/" ++ rest := by
  obtain ⟨cs, hcs⟩ := List.head?_eq_some_iff.1 (by simpa [isAbsolute] using h)
  exact ⟨String.ofList cs, by rw [← String.toList_inj, hcs]; simp⟩

theorem isAbsolute_slash (p : Path) : isAbsolute ("/" ++ p) = true := by simp [isAbsolute]

theorem isAbsolute_append {p q : Path} (h : p.isEmpty = false) :
    isAbsolute (p ++ q) = isAbsolute p := by
  have hne : p.toList ≠ [] := by simpa using h
  rw [isAbsolute, isAbsolute, String.toList_append, List.head?_append_of_ne_nil _ hne]

theorem exists_of_getLast? {p : Path} (h : p.toList.getLast? = some '/') :
    ∃ above, p = above ++ "/" := by
  obtain ⟨cs, hcs⟩ := List.getLast?_eq_some_iff.1 h
  exact ⟨String.ofList cs, by rw [← String.toList_inj, hcs]; simp⟩

theorem isAbsolute_iff {p : Path} :
    isAbsolute p = true ↔ ∃ part more, parts p = "" :: part :: more := by
  constructor
  · intro h
    obtain ⟨rest, rfl⟩ := exists_of_isAbsolute h
    obtain ⟨part, more, hrest⟩ := List.exists_cons_of_ne_nil (parts_ne_nil rest)
    exact ⟨part, more, by rw [parts_slash, hrest]⟩
  · rintro ⟨part, more, hparts⟩
    rw [isAbsolute]
    cases hp : p.toList with
    | nil => simp [parts, hp, Text.splitBy] at hparts
    | cons c cs =>
      -- a first character that is no slash would stand in the first part
      by_contra hc
      obtain ⟨first, others, hcs⟩ := List.exists_cons_of_ne_nil
        (List.splitOnP_ne_nil (· == '/') cs)
      rw [parts, hp, Text.splitBy, if_neg (by simpa using hc), Text.splitBy_eq_splitOnP,
        hcs] at hparts
      simp at hparts

/-! ### Parents -/

/-- The parts that are not idle. -/
def active (ps : List String) : List String := ps.filter fun part => !isIdle part

theorem active_cons_of_idle {part : String} (h : isIdle part = true) (ps : List String) :
    active (part :: ps) = active ps := by
  simp [active, h]

theorem exists_dropIdleEnd (ps : List String) :
    ∃ idle, ps = dropIdleEnd ps ++ idle ∧ ∀ part ∈ idle, isIdle part = true := by
  refine ⟨(ps.reverse.takeWhile isIdle).reverse, ?_, fun part hpart => ?_⟩
  · rw [dropIdleEnd, ← List.reverse_append, List.takeWhile_append_dropWhile, List.reverse_reverse]
  · exact List.all_eq_true.1 List.all_takeWhile part (List.mem_reverse.1 hpart)

theorem active_dropIdleEnd (ps : List String) : active (dropIdleEnd ps) = active ps := by
  obtain ⟨idle, hps, hidle⟩ := exists_dropIdleEnd ps
  have hnone : active idle = [] := by simpa [active] using hidle
  calc active (dropIdleEnd ps)
      = active (dropIdleEnd ps) ++ active idle := by rw [hnone, List.append_nil]
    _ = active (dropIdleEnd ps ++ idle) := (List.filter_append ..).symm
    _ = active ps := by rw [← hps]

theorem dropIdleEnd_concat {last : String} (h : isIdle last = false) (before : List String) :
    dropIdleEnd (before ++ [last]) = before ++ [last] := by
  simp [dropIdleEnd, h]

theorem active_parts_intercalate {names : List String} (h : ∀ name ∈ names, '/' ∉ name.toList) :
    active (parts (String.intercalate "/" names)) = active names := by
  by_cases hne : names = []
  · subst hne
    rfl
  · rw [parts_intercalate h hne]

theorem parent_of_parts {p start rest : Path} {before : List String} {last : String}
    (hstart : splitStart p = (start, rest)) (hparts : parts rest = before ++ [last])
    (hlast : isIdle last = false) :
    parent p = some (start ++ String.intercalate "/" (dropIdleEnd before)) := by
  simp [parent, hstart, hparts, dropIdleEnd_concat hlast]

theorem splitStart_cases (p : Path) :
    (∃ rest, p = "/" ++ rest ∧ splitStart p = ("/", rest)) ∨ p = "." ∨
      (∃ rest, p = "." ++ "/" ++ rest ∧ splitStart p = (".", "/" ++ rest)) ∨
      isAbsolute p = false ∧ splitStart p = ("", p) := by
  rw [splitStart]
  split
  · rename_i rest hp
    exact .inl ⟨String.ofList rest, by rw [← String.toList_inj, hp]; simp, rfl⟩
  · rename_i hp
    exact .inr (.inl (by rw [← String.toList_inj, hp]; rfl))
  · rename_i rest hp
    refine .inr (.inr (.inl ⟨String.ofList rest, by rw [← String.toList_inj, hp]; simp, ?_⟩))
    exact congrArg (Prod.mk ".") (String.toList_inj.1 (by simp))
  · rename_i hslash _ _
    refine .inr (.inr (.inr ⟨?_, rfl⟩))
    rw [isAbsolute, beq_eq_false_iff_ne]
    intro hhead
    obtain ⟨rest, hp⟩ := List.head?_eq_some_iff.1 hhead
    exact hslash rest hp

theorem isAbsolute_intercalate {p : Path} {names more : List String} (hp : isAbsolute p = false)
    (hparts : parts p = names ++ more) : isAbsolute (String.intercalate "/" names) = false := by
  by_contra habsolute
  have hslash : ∀ name ∈ names, '/' ∉ name.toList := fun name hname =>
    not_mem_of_mem_parts (hparts ▸ List.mem_append_left more hname)
  have hne : names ≠ [] := by
    rintro rfl
    exact habsolute rfl
  obtain ⟨part, others, hnames⟩ := isAbsolute_iff.1 (by simpa using habsolute)
  rw [parts_intercalate hslash hne] at hnames
  rw [hnames] at hparts
  have hp' := isAbsolute_iff.2 ⟨part, others ++ more, hparts⟩
  cases hp.symm.trans hp'

theorem not_mem_dropIdleEnd {p : Path} {names more : List String}
    (hparts : parts p = names ++ more) : ∀ name ∈ dropIdleEnd names, '/' ∉ name.toList := by
  intro name hname
  obtain ⟨idle, hidle, -⟩ := exists_dropIdleEnd names
  rw [hidle, List.append_assoc] at hparts
  exact not_mem_of_mem_parts (hparts ▸ List.mem_append_left _ hname)

theorem isAbsolute_dot (p : Path) : isAbsolute ("." ++ p) = false := by simp [isAbsolute]

/-- A dot in front of joined names takes the place of an empty one. -/
theorem active_parts_dot {names : List String} (h : ∀ name ∈ names, '/' ∉ name.toList)
    (hfirst : names = [] ∨ names.head? = some "") :
    active (parts ("." ++ String.intercalate "/" names)) = active names := by
  rcases hfirst with rfl | hfirst
  · rfl
  · obtain ⟨others, rfl⟩ := List.head?_eq_some_iff.1 hfirst
    have hothers : ∀ name ∈ "." :: others, '/' ∉ name.toList := by
      intro name hname
      rcases List.mem_cons.1 hname with rfl | hname
      · decide
      · exact h name (List.mem_cons_of_mem "" hname)
    rw [← String.intercalate_cons_append, String.append_empty, active_parts_intercalate hothers]
    rfl

/-- A path with a last name has a parent, which has all of its parts but the name and idle ones. -/
theorem exists_parent {p : Path} {before : List String} {last : String}
    (hparts : parts p = before ++ [last]) (hlast : isIdle last = false) :
    ∃ dir, parent p = some dir ∧ isAbsolute dir = isAbsolute p ∧
      active (parts dir) = active before := by
  rcases splitStart_cases p with ⟨rest, rfl, hstart⟩ | rfl | ⟨rest, rfl, hstart⟩ | ⟨hrel, hstart⟩
  · obtain ⟨names, name, hrest⟩ := exists_concat_parts rest
    rw [parts_slash, hrest, ← List.cons_append] at hparts
    obtain ⟨rfl, hname⟩ := List.append_inj' hparts rfl
    obtain rfl := List.singleton_inj.1 hname
    refine ⟨_, parent_of_parts hstart hrest hlast, ?_, ?_⟩
    · rw [isAbsolute_slash, isAbsolute_slash]
    · rw [parts_slash, active_cons_of_idle rfl, active_cons_of_idle rfl,
        active_parts_intercalate (not_mem_dropIdleEnd hrest), active_dropIdleEnd]
  · have hdot : [] ++ ["."] = before ++ [last] := hparts
    obtain ⟨-, hname⟩ := List.append_inj' hdot rfl
    obtain rfl := List.singleton_inj.1 hname
    cases hlast
  · obtain ⟨names, name, hrest⟩ := exists_concat_parts rest
    have hslash : parts ("/" ++ rest) = ("" :: names) ++ [name] := by rw [parts_slash, hrest]; rfl
    rw [parts_append, hrest, ← List.append_assoc] at hparts
    obtain ⟨rfl, hname⟩ := List.append_inj' hparts rfl
    obtain rfl := List.singleton_inj.1 hname
    refine ⟨_, parent_of_parts hstart hslash hlast, ?_, ?_⟩
    · rw [isAbsolute_dot, String.append_assoc, isAbsolute_dot]
    · have hfirst : dropIdleEnd ("" :: names) = [] ∨
          (dropIdleEnd ("" :: names)).head? = some "" := by
        obtain ⟨idle, hidle, -⟩ := exists_dropIdleEnd ("" :: names)
        cases hkept : dropIdleEnd ("" :: names) with
        | nil => exact .inl rfl
        | cons first others =>
          rw [hkept, List.cons_append] at hidle
          rw [(List.cons.inj hidle).1]
          exact .inr rfl
      rw [active_parts_dot (not_mem_dropIdleEnd hslash) hfirst, active_dropIdleEnd]
      rfl
  · refine ⟨_, parent_of_parts hstart hparts hlast, ?_, ?_⟩
    · obtain ⟨idle, hidle, -⟩ := exists_dropIdleEnd before
      rw [hidle, List.append_assoc] at hparts
      rw [String.empty_append, isAbsolute_intercalate hrel hparts, hrel]
    · rw [String.empty_append, active_parts_intercalate (not_mem_dropIdleEnd hparts),
        active_dropIdleEnd]

end Path

namespace Tree

variable {t : Tree} {place : Place} {p dir : Path}

/-! ### Following relative paths -/

/-- Where a path leads: its parts are followed from the root, or from the working directory. -/
def follow (t : Tree) (p : Path) : Except Error Place :=
  p.parts.foldlM t.step (if p.isAbsolute then [] else t.workDir)

theorem locate_eq_follow (ht : t.HasWorkDir) (hp : p.isEmpty = false) :
    t.locate p = t.follow p := by
  rw [locate, if_neg (by simp [hp]), partsFromRoot, follow]
  split_ifs
  · rfl
  · rw [List.foldlM_append, foldlM_step ht.names ht.directories]
    rfl

/-- An idle step in front of others only checks what they check. -/
theorem foldlM_step_idle {parts : List String} (hne : parts ≠ []) (start : Place) :
    ("" :: parts).foldlM t.step start = parts.foldlM t.step start := by
  obtain ⟨part, parts, rfl⟩ := List.exists_cons_of_ne_nil hne
  have hidle : Path.isIdle "" = true := rfl
  rw [List.foldlM_cons, List.foldlM_cons]
  cases hstart : t.at? start with
  | none => simp [step, hstart, bind, Except.bind]
  | some content => cases content <;> simp [step, hstart, bind, Except.bind, hidle]

/-- **A relative path that is joined to another leads from where that leads.** -/
theorem follow_join (ht : t.HasWorkDir) (hp : p.isAbsolute = false) :
    t.follow (dir.join p) = t.follow dir >>= p.parts.foldlM t.step := by
  by_cases hdir : dir.isEmpty = true
  · obtain rfl := String.isEmpty_iff.1 hdir
    have hjoin : Path.join "" p = p := by simp [Path.join]
    have hhere : t.follow "" = .ok t.workDir := by
      show [""].foldlM t.step t.workDir = _
      rw [List.foldlM_cons, step_idle (ht.directories _ List.prefix_rfl) rfl]
      rfl
    rw [hjoin, hhere, follow, if_neg (by simp [hp])]
    rfl
  · have hstart : ∀ q, Path.isAbsolute (dir ++ q) = dir.isAbsolute := fun q =>
      Path.isAbsolute_append (by simpa using hdir)
    by_cases hslash : dir.toList.getLast? = some '/'
    · obtain ⟨above, habove⟩ := Path.exists_of_getLast? hslash
      have hjoin : dir.join p = dir ++ p := by simp [Path.join, hp, hdir, hslash]
      have hparts : Path.parts dir = above.parts ++ [""] := by
        have hend : above ++ "/" = above ++ "/" ++ "" := String.append_empty.symm
        rw [habove, hend, Path.parts_append]
        rfl
      have hboth : Path.parts (dir ++ p) = above.parts ++ p.parts := by
        rw [habove, Path.parts_append]
      rw [hjoin, follow, follow, hstart, hboth, hparts, List.foldlM_append, List.foldlM_append,
        bind_assoc]
      refine bind_congr fun start => ?_
      rw [← List.foldlM_append]
      exact (foldlM_step_idle (Path.parts_ne_nil p) start).symm
    · have hjoin : dir.join p = dir ++ "/" ++ p := by simp [Path.join, hp, hdir, hslash]
      rw [hjoin, follow, follow, String.append_assoc, hstart, ← String.append_assoc,
        Path.parts_append, List.foldlM_append]

/-! ### The directory of a file -/

theorem directory_of_foldlM {parts : List String} {start : Place}
    (hplace : t.at? place = some .directory) (h : parts.foldlM t.step start = .ok place) :
    t.at? start = some .directory := by
  cases parts with
  | nil => rwa [Except.ok.inj h]
  | cons part parts =>
    obtain ⟨next, hstep, -⟩ := bind_eq_ok_iff.1 h
    exact (step_cases hstep).1

/-- On the way to a directory, idle parts make no difference. -/
theorem foldlM_active {parts : List String} {start : Place}
    (hplace : t.at? place = some .directory) :
    (Path.active parts).foldlM t.step start = .ok place ↔
      parts.foldlM t.step start = .ok place := by
  induction parts generalizing start with
  | nil => rfl
  | cons part parts ih =>
    by_cases hidle : Path.isIdle part = true
    · rw [Path.active_cons_of_idle hidle, ih, List.foldlM_cons, bind_eq_ok_iff]
      constructor
      · intro h
        exact ⟨start, step_idle (directory_of_foldlM hplace h) hidle, h⟩
      · rintro ⟨next, hstep, h⟩
        rwa [(step_cases_idle hidle hstep).2] at h
    · have hactive : Path.active (part :: parts) = part :: Path.active parts := by
        simp [Path.active, hidle]
      simp only [hactive, List.foldlM_cons, bind_eq_ok_iff, ih]

/-- There are directories all the way to a place. -/
def HasWay (t : Tree) (place : Place) : Prop :=
  ∀ d, d <+: place → d ≠ place → t.at? d = some .directory

theorem HasWay.dropLast (h : t.HasWay place) : t.at? place.dropLast = some .directory := by
  by_cases hne : place = []
  · subst hne
    rfl
  · refine h _ (List.dropLast_prefix place) fun heq => ?_
    have hlength := congrArg List.length heq
    have hpos := List.length_pos_of_ne_nil hne
    rw [List.length_dropLast] at hlength
    omega

theorem HasWay.step {part : String} {next : Place} (h : t.HasWay place)
    (hstep : t.step place part = .ok next) : t.HasWay next := by
  obtain ⟨hplace, ⟨-, rfl⟩ | ⟨-, rfl⟩ | ⟨-, -, -, rfl⟩⟩ := step_cases hstep
  · exact h
  · intro d hd hne
    refine h d (hd.trans (List.dropLast_prefix place)) ?_
    rintro rfl
    exact hne (hd.eq_of_length_le (by simp))
  · intro d hd hne
    rcases List.prefix_concat_iff.1 hd with rfl | hd
    · exact absurd rfl hne
    · by_cases heq : d = place
      · rwa [heq]
      · exact h d hd heq

theorem HasWay.foldlM {parts : List String} {start : Place} (hstart : t.HasWay start)
    (h : parts.foldlM t.step start = .ok place) : t.HasWay place := by
  induction parts generalizing start with
  | nil => rwa [← Except.ok.inj h]
  | cons part parts ih =>
    obtain ⟨next, hstep, hrest⟩ := bind_eq_ok_iff.1 h
    exact ih (hstart.step hstep) hrest

/-- A path leads to a text in a directory. -/
structure Stands (t : Tree) (p : Path) (dir : Place) (name text : String) : Prop where
  /-- The path leads there. -/
  place : t.locate p = .ok (dir ++ [name])
  /-- The text is there. -/
  content : t.at? (dir ++ [name]) = some (.text text)

theorem Stands.eq_of_locate {d e : Place} {name other text : String} (h : t.Stands p d name text)
    (hplace : t.locate p = .ok (e ++ [other])) : d = e :=
  (List.append_inj' (Except.ok.inj (h.place.symm.trans hplace)) rfl).1

theorem readText_eq_ok_iff {text : String} :
    t.readText p = .ok text ↔ ∃ d name, t.Stands p d name text := by
  constructor
  · intro h
    obtain ⟨content, hcontent, htext⟩ := bind_eq_ok_iff.1 h
    obtain ⟨place, hplace, hat⟩ := bind_eq_ok_iff.1 hcontent
    have hcontents : t.at? place = some (.text text) := by
      split at hat
      · rename_i found hfound
        obtain rfl := Except.ok.inj hat
        cases found with
        | directory => cases htext
        | binary => cases htext
        | text s => rw [hfound, Except.ok.inj htext]
      · cases hat
    rcases List.eq_nil_or_concat' place with rfl | ⟨d, name, rfl⟩
    · cases hcontents
    · exact ⟨d, name, hplace, hcontents⟩
  · rintro ⟨d, name, h⟩
    simp [readText, contentOf, h.place, h.content, bind, Except.bind, pure, Except.pure]

/-- Paths that are joined to `dir` are taken from a place, unless they are absolute. -/
structure IsBase (t : Tree) (dir : Path) (place : Place) : Prop where
  /-- An absolute path is taken as it is. -/
  absolute : ∀ p : Path, p.isAbsolute = true → dir.join p = p
  /-- Any other leads where it does from the place. -/
  relative : ∀ p : Path, p.isAbsolute = false →
    t.follow (dir.join p) = p.parts.foldlM t.step place

theorem isBase_of_follow (ht : t.HasWorkDir) (h : t.follow dir = .ok place) :
    t.IsBase dir place where
  absolute p hp := by simp [Path.join, hp]
  relative p hp := by
    rw [follow_join ht hp, h]
    rfl

/-- **The parent of the path of a text is a path of its directory.** -/
theorem Stands.exists_base (ht : t.HasWorkDir) {d : Place} {name text : String}
    (h : t.Stands p d name text) : ∃ dir, p.parent = some dir ∧ t.IsBase dir d := by
  have hne : p.isEmpty = false := by
    by_contra hempty
    have hplace := h.place
    rw [locate, if_pos (by simpa using hempty)] at hplace
    cases hplace
  have hfollow := h.place
  rw [locate_eq_follow ht hne, follow] at hfollow
  obtain ⟨before, last, hparts⟩ := Path.exists_concat_parts p
  rw [hparts, List.foldlM_append] at hfollow
  obtain ⟨place, hbefore, hlast⟩ := bind_eq_ok_iff.1 hfollow
  have hway : t.HasWay place := by
    refine HasWay.foldlM (fun e he _ => ?_) hbefore
    split_ifs at he
    · rw [List.prefix_nil.1 he]
      rfl
    · exact ht.directories e he
  obtain ⟨_, hstep, hend⟩ := bind_eq_ok_iff.1 hlast
  obtain rfl := Except.ok.inj hend
  -- only a name leads from a directory to a text
  obtain ⟨hdirectory, ⟨-, hstay⟩ | ⟨-, hup⟩ | ⟨hidle, -, -, hdown⟩⟩ := step_cases hstep
  · rw [← hstay, h.content] at hdirectory
    cases hdirectory
  · have habove := hway.dropLast
    rw [← hup, h.content] at habove
    cases habove
  · obtain ⟨rfl, -⟩ := List.append_inj' hdown rfl
    obtain ⟨dir, hparent, habsolute, hactive⟩ := Path.exists_parent hparts hidle
    refine ⟨dir, hparent, isBase_of_follow ht ?_⟩
    rw [follow, habsolute, ← foldlM_active hdirectory, hactive, foldlM_active hdirectory]
    exact hbefore

end Tree

end Files

end ContractGen
