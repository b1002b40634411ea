import ContractGen.Proofs.Places

/-!
# Written files

A file that was written can be read by the same path (`Tree.readText_of_writeText`). A path tells a
name in a directory, and leads there through directories only. The write changes none of those, so
the path leads to the file afterwards. Output is written after the directories that are missing
were made, and can be read all the same (`Tree.readText_of_writeOutput`).
-/

namespace ContractGen

namespace Files

namespace Path

theorem exists_last_part {p : Path} (hne : p.isEmpty = false)
    (hend : p.toList.getLast? ≠ some '/') :
    ∃ before last, parts p = before ++ [last] ∧ last ≠ "" := by
  by_cases hmem : '/' ∈ p.toList
  · obtain ⟨after, before, heq, hafter⟩ := List.eq_append_cons_of_mem (List.mem_reverse.2 hmem)
    have hp : p.toList = before.reverse ++ '/' :: after.reverse := by
      simpa using congrArg List.reverse heq
    have hpath : p = String.ofList before.reverse ++ "/" ++ String.ofList after.reverse := by
      rw [← String.toList_inj, hp]
      simp
    have hlast : '/' ∉ (String.ofList after.reverse).toList := by simpa using hafter
    refine ⟨_, _, by rw [hpath, parts_append, parts_of_not_mem hlast], ?_⟩
    intro hnil
    have hafter : after = [] := by simpa using hnil
    simp [hp, hafter] at hend
  · exact ⟨[], p, parts_of_not_mem hmem, by simpa using hne⟩

end Path

namespace Tree

variable {t : Tree} {place : Place} {name : String}

/-! ### Changes -/

theorem at?_put_self (hne : place ≠ []) (content : Content) :
    (t.put place content).at? place = some content := by
  simp [at?, put, hne]

theorem at?_put_of_ne {other : Place} (h : other ≠ place) (content : Content) :
    (t.put place content).at? other = t.at? other := by
  have hne : (other == place) = false := beq_eq_false_iff_ne.2 h
  have hlookup : (t.entries.filter fun entry => entry.1 != place).lookup other =
      t.entries.lookup other := by
    induction t.entries with
    | nil => rfl
    | cons entry entries ih =>
      obtain ⟨p, c⟩ := entry
      by_cases hp : p = place
      · subst hp
        simp [ih, List.lookup_cons, hne]
      · simp [hp, ih, List.lookup_cons]
  simp [at?, put, List.lookup_cons, hne, hlookup]

theorem isSome_at?_put {other : Place} (h : (t.at? other).isSome = true) (content : Content) :
    ((t.put place content).at? other).isSome = true := by
  by_cases hother : other = place
  · subst hother
    by_cases hnil : other = []
    · subst hnil
      rfl
    · simp [at?_put_self hnil]
  · rwa [at?_put_of_ne hother]

/-- A step through directories leads where it did, when something else is put into the tree. -/
theorem step_put {part : String} {start next : Place} (hstep : t.step start part = .ok next)
    (hplace : t.at? place ≠ some .directory) (content : Content) :
    (t.put place content).step start part = .ok next := by
  obtain ⟨hstart, hnext⟩ := step_cases hstep
  have hne : start ≠ place := by
    rintro rfl
    exact hplace hstart
  have hstart' : (t.put place content).at? start = some .directory := by
    rw [at?_put_of_ne hne, hstart]
  rcases hnext with ⟨hidle, rfl⟩ | ⟨rfl, rfl⟩ | ⟨hidle, hup, hsome, rfl⟩
  · exact step_idle hstart' hidle
  · exact step_up hstart'
  · rw [step_name hstart' hidle hup, if_pos (isSome_at?_put hsome content)]

theorem foldlM_step_put {parts : List String} {start next : Place}
    (hsteps : parts.foldlM t.step start = .ok next) (hplace : t.at? place ≠ some .directory)
    (content : Content) : parts.foldlM (t.put place content).step start = .ok next := by
  induction parts generalizing start with
  | nil => exact hsteps
  | cons part parts ih =>
    obtain ⟨mid, hmid, hrest⟩ := bind_eq_ok_iff.1 hsteps
    rw [List.foldlM_cons, step_put hmid hplace]
    exact ih hrest

/-! ### Writing and reading -/

theorem exists_partsFromRoot (t : Tree) {p : Path} (hne : p.isEmpty = false)
    (hslash : endsInSlash p = false) :
    ∃ before last, t.partsFromRoot p = before ++ [last] ∧ last ≠ "" := by
  obtain ⟨before, last, hp, hlast⟩ :=
    Path.exists_last_part hne (by simpa [endsInSlash] using hslash)
  unfold partsFromRoot
  split_ifs
  · exact ⟨before, last, hp, hlast⟩
  · exact ⟨t.workDir ++ before, last, by rw [hp, List.append_assoc], hlast⟩

theorem locateName_of_last {p : Path} {before : List String} {last : String}
    (hne : p.isEmpty = false) (hparts : t.partsFromRoot p = before ++ [last]) (hlast : last ≠ "") :
    t.locateName p = (do
      let dir ← before.foldlM t.step []
      let dir ← t.step dir ""
      return (dir, if last = "." || last = ".." then none else some last)) := by
  have hdrop : (t.partsFromRoot p).reverse.dropWhile String.isEmpty = last :: before.reverse := by
    simp [hparts, hlast]
  simp [locateName, hne, hdrop]

/-- A path tells a name in a directory. -/
structure Tells (t : Tree) (p : Path) (dir : Place) (name : String) : Prop where
  /-- The path is not empty. -/
  path_ne : p.isEmpty = false
  /-- All parts but the last lead to the directory. -/
  before : ∃ before, t.partsFromRoot p = before ++ [name] ∧ before.foldlM t.step [] = .ok dir
  /-- The directory is there. -/
  directory : t.at? dir = some .directory
  /-- The name is none that says nothing. -/
  idle : Path.isIdle name = false
  /-- The name does not lead up. -/
  up : name ≠ ".."

theorem exists_of_writeText {t' : Tree} {p : Path} {text : String}
    (h : t.writeText p text = .ok t') :
    ∃ dir name, t.Tells p dir name ∧ t.at? (dir ++ [name]) ≠ some .directory ∧
      t' = t.put (dir ++ [name]) (.text text) := by
  unfold writeText at h
  obtain ⟨⟨dir, name?⟩, hname, h⟩ := bind_eq_ok_iff.1 h
  cases name? with
  | none => cases h
  | some name =>
    simp only at h
    split_ifs at h with hslash hdirectory
    have hne : p.isEmpty = false := by
      cases hempty : p.isEmpty with
      | false => rfl
      | true =>
        rw [locateName, if_pos hempty] at hname
        cases hname
    obtain ⟨before, last, hparts, hlast⟩ := t.exists_partsFromRoot hne (by simpa using hslash)
    rw [locateName_of_last hne hparts hlast] at hname
    obtain ⟨start, hbefore, hrest⟩ := bind_eq_ok_iff.1 hname
    obtain ⟨checked, hidle, hend⟩ := bind_eq_ok_iff.1 hrest
    obtain ⟨hdir, hchecked⟩ := step_cases_idle rfl hidle
    obtain ⟨hdirEq, hdots⟩ := Prod.mk.inj (Except.ok.inj hend)
    split_ifs at hdots with hdot
    obtain ⟨hdot, hup⟩ : last ≠ "." ∧ last ≠ ".." := by simpa using hdot
    obtain rfl := Option.some.inj hdots
    subst hdirEq hchecked
    exact ⟨_, _, ⟨hne, ⟨before, hparts, hbefore⟩, hdir, by simp [Path.isIdle, hlast, hdot], hup⟩,
      hdirectory, (Except.ok.inj h).symm⟩

/-- What a path tells is found after it was put there. -/
theorem Tells.locate_put {p : Path} {dir : Place} (h : t.Tells p dir name)
    (hfile : t.at? (dir ++ [name]) ≠ some .directory) (content : Content) :
    (t.put (dir ++ [name]) content).locate p = .ok (dir ++ [name]) := by
  obtain ⟨before, hparts, hbefore⟩ := h.before
  have hsame : (t.put (dir ++ [name]) content).partsFromRoot p = before ++ [name] := hparts
  have hdir : (t.put (dir ++ [name]) content).at? dir = some .directory := by
    rw [at?_put_of_ne (by simp), h.directory]
  have hlast : (t.put (dir ++ [name]) content).step dir name = .ok (dir ++ [name]) := by
    simp [step_name hdir h.idle h.up, at?_put_self]
  rw [locate, h.path_ne, hsame, List.foldlM_append, foldlM_step_put hbefore hfile]
  show [name].foldlM (t.put (dir ++ [name]) content).step dir = _
  rw [List.foldlM_cons, hlast]
  rfl

/-- **What is written can be read.** -/
theorem readText_of_writeText {t' : Tree} {p : Path} {text : String}
    (h : t.writeText p text = .ok t') : t'.readText p = .ok text := by
  obtain ⟨dir, name, htells, hfile, rfl⟩ := exists_of_writeText h
  rw [readText, contentOf, htells.locate_put hfile]
  simp [bind, Except.bind, at?_put_self, pure, Except.pure]

theorem eq_ok_of_update {t' : Tree} {change : Tree → Except Error Tree}
    (h : (update change).run t = (.ok (), t')) : change t = .ok t' := by
  simp only [update, StateT.run] at h
  split at h
  · rename_i changed hchange
    rw [hchange, (Prod.mk.inj h).2]
  · cases (Prod.mk.inj h).1

/-- Output that was written can be read, whatever directories were made for it. -/
theorem readText_of_writeOutput {t' : Tree} {p : Path} {text : String}
    (h : (access.writeOutput p text).run t = (.ok (), t')) : t'.readText p = .ok text := by
  suffices ∃ t₁ : Tree, (access.writeText p text).run t₁ = (.ok (), t') by
    obtain ⟨t₁, hwrite⟩ := this
    exact readText_of_writeText (eq_ok_of_update hwrite)
  unfold Access.writeOutput at h
  split at h
  · exact ⟨t, h⟩
  · rename_i dir _
    rw [run_bind] at h
    split_ifs at h
    · exact ⟨_, h⟩
    · rw [run_bind] at h
      split at h
      · cases (Prod.mk.inj h).1
      · exact ⟨_, h⟩

end Tree

end Files

end ContractGen
