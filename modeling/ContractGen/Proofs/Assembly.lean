import ContractGen.Generation
import ContractGen.Proofs.Filling
import ContractGen.Proofs.SourceLines

/-!
# Assembled files

A file is put together from the codes of its types in several steps, each of which drops some text:
codes are trimmed, blank ones left out, the rest joined with blank lines between them and put into
the template of files, and the result is made tidy. What is dropped are blanks only. The lines with
text of joined codes are those of the codes (`textLines_joinCodes`), a filled template has those of
its head and those of the types in it (`Model.File.textLines_text`), and `lines_of_assemble` says so
of the file.
-/

namespace ContractGen

open Layout (linesOf textLines)
open Template (Library)

/-! ### Texts in a row -/

theorem textLines_blank_line (a b : String) :
    textLines (linesOf (a ++ "\n\n" ++ b)) = textLines (linesOf a) ++ textLines (linesOf b) := by
  have hsplit : (a ++ "\n\n" ++ b).toList = a.toList ++ '\n' :: ([] ++ '\n' :: b.toList) := by simp
  have hblank : textLines (Text.lines []) = [] := rfl
  rw [linesOf, hsplit, Layout.textLines_append, Layout.textLines_append, hblank, List.nil_append,
    linesOf, linesOf]

theorem textLines_line_feed (a : String) :
    textLines (linesOf (a ++ "\n")) = textLines (linesOf a) := by
  have hsplit : (a ++ "\n").toList = a.toList ++ '\n' :: [] := by simp
  have hblank : textLines (Text.lines []) = [] := rfl
  rw [linesOf, hsplit, Layout.textLines_append, hblank, List.append_nil, linesOf]

theorem textLines_intercalate (texts : List String) :
    textLines (linesOf (String.intercalate "\n\n" texts)) =
      texts.flatMap fun text => textLines (linesOf text) := by
  induction texts with
  | nil => rfl
  | cons first rest ih =>
    cases rest with
    | nil => simp
    | cons second rest =>
      rw [List.flatMap_cons, ← ih, String.intercalate_cons_cons, textLines_blank_line]

/-- **Joined codes** have the lines with text of the trimmed codes, in order. -/
theorem textLines_joinCodes (codes : List String) :
    textLines (linesOf (joinCodes codes)) =
      codes.flatMap fun code => textLines (linesOf (Text.trimString code)) := by
  rw [joinCodes, textLines_intercalate]
  induction codes with
  | nil => simp
  | cons code codes ih =>
    rw [List.map_cons, List.flatMap_cons, ← ih]
    by_cases hcode : (Text.trimString code).isEmpty = true
    · -- a code that is left out has no line to be missed
      have hnone : textLines (linesOf (Text.trimString code)) = [] := by
        rw [String.isEmpty_iff.1 hcode]
        rfl
      simp [hcode, hnone]
    · simp [hcode]

/-! ### Files -/

theorem Model.File.textLines_text (f : Model.File) :
    textLines (linesOf f.text) = textLines (linesOf f.head) ++ textLines (linesOf f.typesCode) := by
  rw [Model.File.text, textLines_line_feed, textLines_blank_line]

theorem Template.Library.render_file {library : Library}
    (h : library.lookup Name.file = some Builtin.fileTemplate) (file : Model.File) :
    library.render Name.file file.toValue = .ok file.text :=
  render_of_lookup h (Model.render_file file)

/-- Whether a renderer does with files as the built-in template for them. -/
def RendersFiles {ε : Type} (render : Renderer ε) : Prop :=
  ∀ (file : Model.File) (code : String),
    Library.builtin.render Template.Name.file file.toValue = .ok code →
      render Template.Name.file file.toValue = .ok code

theorem Template.Library.rendersFiles {library : Library}
    (h : library.lookup Name.file = some Builtin.fileTemplate) : RendersFiles library.render := by
  intro file code hcode
  rw [render_file h]
  rwa [render_file rfl] at hcode

/-- **Assembly loses and reorders nothing.** With the built-in template for files, the lines with
text of a file are those that it has without any types, followed by those of the trimmed code of
each artifact, artifact by artifact. -/
theorem lines_of_assemble {ε : Type} (render : Renderer ε) (h : RendersFiles render) (s : Settings)
    (artifacts : List Artifact) :
    ∃ frame code,
      render Template.Name.file (⟨s.scope, s.nullableAnnotations, ""⟩ : Model.File).toValue =
        .ok frame ∧
      assemble render s (artifacts.map Artifact.code) = .ok code ∧
      textLines (linesOf code) = textLines (linesOf frame) ++
        artifacts.flatMap fun a => textLines (linesOf (Text.trimString a.code)) := by
  have hrender : ∀ file : Model.File, render Template.Name.file file.toValue = .ok file.text :=
    fun file => h file file.text (Library.render_file rfl file)
  have hframe : textLines (linesOf (⟨s.scope, s.nullableAnnotations, ""⟩ : Model.File).text) =
      textLines (linesOf (⟨s.scope, s.nullableAnnotations, ""⟩ : Model.File).head) := by
    rw [Model.File.textLines_text]
    exact List.append_nil _
  refine ⟨_, _, hrender _, by rw [assemble, hrender]; rfl, ?_⟩
  rw [Layout.textLines_tidy, hframe, Model.File.textLines_text]
  -- the head of a file does not depend on its types
  refine congrArg _ ?_
  rw [fileModel, textLines_joinCodes, List.flatMap_map]

/-- A library with a template of its own for classes, and none for files. -/
def terseLibrary : Library := (Template.Name.class, [.text "class"]) :: Library.builtin

/-- Three artifacts, the second without any code. -/
def kennelArtifacts : List Artifact := [
  ⟨"Dog", none, .record, "\n  class Dog \r\n\x7b\n\n  int Age; \n\x7d\n\n"⟩,
  ⟨"Cat", none, .record, " \r\n\t"⟩,
  ⟨"Hen", some "Dog", .record, "class Hen : Dog\r"⟩]

theorem lines_of_assemble_kennel :
    RendersFiles terseLibrary.render ∧
    ∃ frame code,
      terseLibrary.render Template.Name.file (⟨some "Zoo", false, ""⟩ : Model.File).toValue =
        .ok frame ∧
      assemble terseLibrary.render { scope := some "Zoo" } (kennelArtifacts.map Artifact.code) =
        .ok code ∧
      textLines (linesOf code) = textLines (linesOf frame) ++
        ["class Dog", "\x7b", "  int Age;", "\x7d", "class Hen : Dog"].map String.toList := by
  have hfiles : RendersFiles terseLibrary.render := Library.rendersFiles rfl
  have hlines : kennelArtifacts.flatMap (fun a => textLines (linesOf (Text.trimString a.code))) =
      ["class Dog", "\x7b", "  int Age;", "\x7d", "class Hen : Dog"].map String.toList := by decide
  refine ⟨hfiles, ?_⟩
  rw [← hlines]
  exact lines_of_assemble terseLibrary.render hfiles { scope := some "Zoo" } kennelArtifacts

end ContractGen
