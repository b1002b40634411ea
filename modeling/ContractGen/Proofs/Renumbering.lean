import ContractGen.Proofs.Output
import ContractGen.Proofs.RenamedWalks
import Mathlib.Order.Fin.Basic

/-!
# Renumbered graphs

The nodes of a graph can be held in any order. `Graph.renumber` moves them to other places and lets
all pointers follow. The graph is embedded in the renumbered one, which holds no other nodes, so
that nothing is hidden (`keepsDocs_renumber`): the same code is generated from both, and a node has
the same name wherever it is held (`generate_renumber`).
-/

namespace ContractGen

open Schema (Graph Node NodeId)
open Schema.Graph (Embeds KeepsDocs)

namespace Schema.Graph

variable {g : Graph} {p : Equiv.Perm (Fin g.size)}

/-! ### Renumbering -/

/-- The new place of a node. Places outside of the graph stay. -/
def place (g : Graph) (p : Equiv.Perm (Fin g.size)) (i : NodeId) : NodeId :=
  if h : i < g.size then p ⟨i, h⟩ else i

/-- The graph with its nodes moved to their new places, and all pointers with them. -/
def renumber (g : Graph) (p : Equiv.Perm (Fin g.size)) : Graph where
  root := g.place p g.root
  nodes := Array.ofFn fun k : Fin g.size => (g.nodes[p.symm k]).rename (g.place p)

@[simp]
theorem size_renumber (g : Graph) (p : Equiv.Perm (Fin g.size)) :
    (g.renumber p).size = g.size := by
  simp [size, renumber]

theorem place_of_lt {i : NodeId} (h : i < g.size) : g.place p i = p ⟨i, h⟩ := dif_pos h

theorem place_injective (g : Graph) (p : Equiv.Perm (Fin g.size)) :
    Function.Injective (g.place p) := by
  intro i j hij
  simp only [place] at hij
  split_ifs at hij with hi hj hj
  · have hfin : (⟨i, hi⟩ : Fin g.size) = ⟨j, hj⟩ := p.injective (Fin.ext hij)
    exact congrArg Fin.val hfin
  · exact absurd (hij ▸ (p ⟨i, hi⟩).isLt) hj
  · exact absurd (hij ▸ (p ⟨j, hj⟩).isLt) hi
  · exact hij

theorem exists_place_eq {k : NodeId} (hk : k < g.size) : ∃ i < g.size, g.place p i = k := by
  refine ⟨p.symm ⟨k, hk⟩, (p.symm ⟨k, hk⟩).isLt, ?_⟩
  rw [place_of_lt (p.symm ⟨k, hk⟩).isLt]
  simp

theorem node?_renumber {i : NodeId} {node : Node} (h : g.node? i = some node) :
    (g.renumber p).node? (g.place p i) = some (node.rename (g.place p)) := by
  have hi := lt_size_of_node? h
  have hnode : g.nodes[i] = node := (Array.getElem?_eq_some_iff.1 h).2
  rw [place_of_lt hi, node?, renumber, Array.getElem?_ofFn, dif_pos (p ⟨i, hi⟩).isLt]
  simp only [Fin.eta, Equiv.symm_apply_apply]
  exact congrArg (fun node => some (Node.rename (g.place p) node)) hnode

/-- **A sound graph is embedded in the renumbered one.** -/
theorem embeds_renumber (hvalid : g.validate = .ok ()) (p : Equiv.Perm (Fin g.size)) :
    Embeds (g.place p) g (g.renumber p) where
  valid := hvalid
  injective := g.place_injective p
  root := rfl
  node _ _ h := node?_renumber h

/-- Nothing is hidden, for the renumbered graph has no other objects. -/
theorem keepsDocs_renumber (hvalid : g.validate = .ok ()) (p : Equiv.Perm (Fin g.size)) :
    KeepsDocs (g.place p) (fun _ => false) g (g.renumber p) := by
  have e := embeds_renumber hvalid p
  refine e.keepsDocs fun i _ => ?_
  simp only [Walk.mem_inlineNodes, Bool.false_eq_true, or_false]
  constructor
  · rintro ⟨k, hk⟩
    obtain ⟨j, hj, rfl⟩ : ∃ j < g.size, g.place p j = k :=
      exists_place_eq (size_renumber g p ▸ lt_size_of_declaresInPlace hk)
    exact ⟨j, e.declaresInPlace hj i ▸ hk⟩
  · rintro ⟨k, hk⟩
    exact ⟨g.place p k, (e.declaresInPlace (lt_size_of_declaresInPlace hk) i).trans hk⟩

end Schema.Graph

/-- **Places do not matter.** A sound graph gives the same result in whatever order it holds its
nodes: the same error, or the same code and the same types in the same order, with the faults of the
same nodes, which are named by their new places. There is a result unless arrays and unions without
a declared name contain each other in a circle. At the end of the walk every node has the same name
at its new place. -/
theorem generate_renumber {ε : Type} (render : Renderer ε) (s : Settings) (g : Graph)
    (hvalid : g.validate = .ok ()) (p : Equiv.Perm (Fin g.size)) :
    generate render s (g.renumber p) =
      (generate render s g).map (GeneratedFile.rename (g.place p)) ∧
    (g.IsGrounded → generate render s g ≠ .error .endlessType) ∧
    ∀ w, Walk.Reached g s.rootTypeName w [] →
      ∃ w', Walk.Reached (g.renumber p) s.rootTypeName w' [] ∧
        ∀ i, w'.resolver.nameOf (g.place p i) = w.resolver.nameOf i := by
  have e := Graph.embeds_renumber hvalid p
  have hdocs := Graph.keepsDocs_renumber hvalid p
  refine ⟨e.generate hdocs render s, fun hgrounded => ?_, fun w hw => ?_⟩
  · obtain ⟨plan, hplan⟩ := Option.isSome_iff_exists.1 <|
      Plan.ofGraph_isSome hgrounded s.rootTypeName
    simp only [generate, hplan]
    cases plan.render render s <;> simp [Except.mapError]
  · exact ⟨_, e.reached hdocs hw, Resolver.nameOf_rename e.injective w.resolver⟩

/-- A shop with a stock of items, a contact that is a text or an address, and a property whose type
gets no name. -/
def shop : Graph where
  root := 0
  nodes := #[
    { Node.ofKind (.object {
        properties := [⟨"stock", 1, true, false, false, none, []⟩,
          ⟨"contact", 3, false, false, true, none, []⟩, ⟨"?", 8, true, false, false, none, []⟩]
        base := none
        isAbstract := false
        discriminator := none }) with nameHint := some "Shop" },
    Node.ofKind (.array 2), Node.ofKind (.reference 4), Node.ofKind (.union [5, 6]),
    { Node.ofKind (.object ⟨[], some 7, false, none⟩) with nameHint := some "Item" },
    Node.ofKind (.primitive .string none), Node.ofKind (.object ⟨[], none, false, none⟩),
    { Node.ofKind (.object ⟨[], none, true, some ⟨"type", [⟨"item", 2⟩]⟩⟩) with
      nameHint := some "Ware" },
    Node.ofKind (.object ⟨[], none, false, none⟩)]

/-- The shop backwards: the types are the same, and the fault is that of the first node. -/
theorem generate_renumber_shop :
    shop.validate = .ok () ∧ shop.IsGrounded ∧
      ∃ file, generate blankRenderer {} shop = .ok file ∧
        file.artifacts.map Artifact.typeName = ["Shop", "Item", "Ware", "ContactCase2", "OneOf`2",
          "OneOfBase`2", "JsonInheritanceAttribute", "JsonInheritanceConverter",
          "OneOfConverter"] ∧
        file.faults = [⟨8, some "?", .unnamed⟩] ∧
        generate blankRenderer {} (shop.renumber Fin.revPerm) =
          .ok { file with faults := [⟨0, some "?", .unnamed⟩] } := by
  have hvalid : shop.validate = .ok () := by decide +kernel
  have hgrounded : shop.IsGrounded := Graph.isGrounded_of_lt (by decide +kernel)
  obtain ⟨hsame, -, -⟩ := generate_renumber blankRenderer {} shop hvalid Fin.revPerm
  obtain ⟨file, hok⟩ : ∃ file, generate blankRenderer {} shop = .ok file :=
    exists_eq_ok (by decide +kernel)
  have hfile : (generate blankRenderer {} shop).toOption.map
      (fun file => (file.artifacts.map Artifact.typeName, file.faults)) =
      some (["Shop", "Item", "Ware", "ContactCase2", "OneOf`2", "OneOfBase`2",
        "JsonInheritanceAttribute", "JsonInheritanceConverter", "OneOfConverter"],
        [⟨8, some "?", .unnamed⟩]) := by
    decide +kernel
  rw [hok] at hfile hsame
  have hnames := congrArg Prod.fst (Option.some.inj hfile)
  have hfaults : file.faults = _ := congrArg Prod.snd (Option.some.inj hfile)
  refine ⟨hvalid, hgrounded, file, hok, hnames, hfaults, ?_⟩
  rw [hsame, Except.map, GeneratedFile.rename, hfaults]
  rfl

end ContractGen
