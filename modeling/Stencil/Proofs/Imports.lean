import Stencil.Group.Workspace
/-! Groups with all that they import. -/

namespace Stencil

namespace Group

mutual

/-- A group and the groups that it imports, with theirs. -/
def tree : Group → List Group
  | ⟨group, templates, imports, listener, renderers⟩ =>
    ⟨group, templates, imports, listener, renderers⟩ :: treeIn imports

def treeIn : List Group → List Group
  | [] => []
  | g :: gs => g.tree ++ treeIn gs

end

theorem tree_eq (g : Group) : g.tree = g :: treeIn g.imports := by
  cases g
  rfl

theorem treeIn_append : (gs hs : List Group) → treeIn (gs ++ hs) = treeIn gs ++ treeIn hs
  | [], _ => rfl
  | g :: gs, hs => by rw [List.cons_append, treeIn, treeIn, treeIn_append gs hs, List.append_assoc]

theorem mem_tree (g : Group) : g ∈ g.tree := by
  rw [tree_eq]
  exact List.mem_cons_self

mutual

theorem tree_subset {h : Group} : (g : Group) → h ∈ g.tree → h.tree ⊆ g.tree
  | ⟨_, _, imports, _, _⟩, hh => by
      rcases List.mem_cons.mp hh with rfl | hh
      · exact List.Subset.refl _
      · exact List.subset_cons_of_subset _ (treeIn_subset imports hh)

theorem treeIn_subset {h : Group} : (gs : List Group) → h ∈ treeIn gs → h.tree ⊆ treeIn gs
  | g :: gs, hh => by
      rcases List.mem_append.mp hh with hh | hh
      · exact List.subset_append_of_subset_left _ (tree_subset g hh)
      · exact List.subset_append_of_subset_right _ (treeIn_subset gs hh)

end

variable {name : String} {native : Group} {d : Definition}

mutual

/-- What is found is defined in one of the groups. -/
theorem mem_of_find? : (g : Group) → g.find? name = some (native, d) →
    native ∈ g.tree ∧ Dict.find? native.templates name = some d
  | ⟨_, templates, imports, _, _⟩, h => by
      rw [find?] at h
      cases hd : Dict.find? templates name with
      | some e =>
        rw [hd] at h
        cases h
        exact ⟨List.mem_cons_self, hd⟩
      | none =>
        rw [hd] at h
        obtain ⟨hn, hf⟩ := mem_of_findIn? imports h
        exact ⟨List.mem_cons_of_mem _ hn, hf⟩

theorem mem_of_findIn? : (gs : List Group) → findIn? name gs = some (native, d) →
    native ∈ treeIn gs ∧ Dict.find? native.templates name = some d
  | g :: gs, h => by
      rw [findIn?] at h
      cases hd : g.find? name with
      | some found =>
        rw [hd] at h
        cases h
        obtain ⟨hn, hf⟩ := mem_of_find? g hd
        exact ⟨List.mem_append_left _ hn, hf⟩
      | none =>
        rw [hd] at h
        obtain ⟨hn, hf⟩ := mem_of_findIn? gs h
        exact ⟨List.mem_append_right _ hn, hf⟩

end

mutual

/-- What one of the groups finds, all that import it find too, though perhaps another definition. -/
theorem find?_isSome {h : Group} (hf : (h.find? name).isSome = true) : (g : Group) → h ∈ g.tree →
    (g.find? name).isSome = true
  | ⟨_, templates, imports, _, _⟩, hh => by
      rcases List.mem_cons.mp hh with rfl | hh
      · exact hf
      · rw [find?]
        cases Dict.find? templates name with
        | some e => rfl
        | none => exact findIn?_isSome hf imports hh

theorem findIn?_isSome {h : Group} (hf : (h.find? name).isSome = true) : (gs : List Group) →
    h ∈ treeIn gs → (findIn? name gs).isSome = true
  | g :: gs, hh => by
      rw [findIn?]
      cases hd : g.find? name with
      | some found => rfl
      | none =>
        rcases List.mem_append.mp hh with hh | hh
        · have hg := find?_isSome hf g hh
          rw [hd] at hg
          cases hg
        · exact findIn?_isSome hf gs hh

end

/-- What is found for a callee that is written in one of the groups. -/
theorem mem_of_findCallee? {g root : Group} (hg : g ∈ root.tree) {callee : Callee}
    (h : (if callee.inherited then g.findInherited? callee.name else root.find? callee.name) =
      some (native, d)) :
    native ∈ root.tree ∧ Dict.find? native.templates callee.name = some d := by
  split at h
  · obtain ⟨hn, hf⟩ := mem_of_findIn? g.imports h
    exact ⟨tree_subset root hg (tree_eq g ▸ List.mem_cons_of_mem _ hn), hf⟩
  · exact mem_of_find? root h

theorem find?_directory (g : Group) (callee : Callee) :
    g.directory.find? callee = (g.findCallee? callee).map fun found => found.2.formals := by
  unfold Directory.find? findCallee?
  split <;> rfl

end Group

end Stencil
