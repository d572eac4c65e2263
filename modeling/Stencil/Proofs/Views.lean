import Stencil.Proofs.Checking
import Stencil.Proofs.Homes
/-! Views of the templates of a group. All of them are views of one listing, in which the definitions of a group come
first and then those of its imports in turn, each with what it imports. The first definition of a name counts. -/

namespace Stencil

/-! ## Names in order -/

namespace Dict

variable {α : Type}

theorem keys_foldl_insert (entries : List (String × α)) (d : Dict α) (key : String) :
    key ∈ keys (entries.foldl (fun d e => insert e.1 e.2 d) d) ↔ key ∈ keys entries ∨ key ∈ keys d := by
  induction entries generalizing d with
  | nil => simp [keys]
  | cons e entries ih =>
    have hkeys : keys (e :: entries) = e.1 :: keys entries := rfl
    rw [List.foldl_cons, ih, mem_keys_insert, hkeys, List.mem_cons]
    exact or_left_comm.trans or_assoc.symm

theorem sorted_foldl_insert (entries : List (String × α)) {d : Dict α} (h : (keys d).Pairwise (· < ·)) :
    (keys (entries.foldl (fun d e => insert e.1 e.2 d) d)).Pairwise (· < ·) := by
  induction entries generalizing d with
  | nil => exact h
  | cons e entries ih => exact ih (sorted_insert h)

theorem mem_union {names : List (List String)} {name : String} : name ∈ union names ↔ name ∈ names.flatten := by
  rw [union, ofList]
  exact (keys_foldl_insert _ _ _).trans (by simp [keys])

theorem sorted_union (names : List (List String)) : (union names).Pairwise (· < ·) := sorted_foldl_insert _ .nil

end Dict

/-! ## Listings -/

namespace Group

/-- The definitions of some groups in order, each with its name and the group that has it. -/
def listing (groups : List Group) : List (String × Group × Definition) :=
  groups.flatMap fun g => g.templates.map fun e => (e.1, g, e.2)

theorem lookup_templates (g : Group) (name : String) : (g.templates.map fun e => (e.1, g, e.2)).lookup name =
    (Dict.find? g.templates name).map fun d => (g, d) := by
  generalize g.templates = es
  induction es with
  | nil => rfl
  | cons e es ih =>
    rw [List.map_cons, List.lookup_cons, Dict.find?, List.lookup_cons, ih]
    cases name == e.1 <;> rfl

theorem closest?_eq_lookup (name : String) (groups : List Group) :
    closest? name groups = (listing groups).lookup name := by
  induction groups with
  | nil => rfl
  | cons g groups ih =>
    rw [listing, List.flatMap_cons, List.lookup_append, g.lookup_templates, ← listing, ← ih, closest?, List.findSome?_cons]
    cases Dict.find? g.templates name <;> rfl

theorem find?_eq_lookup (g : Group) (name : String) : g.find? name = (listing g.tree).lookup name :=
  (find?_eq_closest? name g).trans (closest?_eq_lookup name _)

theorem findInherited?_eq_lookup (g : Group) (name : String) :
    g.findInherited? name = (listing (treeIn g.imports)).lookup name :=
  (findIn?_eq_closest? name _).trans (closest?_eq_lookup name _)

theorem keys_listing (groups : List Group) : Dict.keys (listing groups) = groups.flatMap ownNames := by
  rw [Dict.keys, listing, List.map_flatMap]
  refine List.flatMap_congr fun g _ => ?_
  rw [List.map_map]
  rfl

mutual

theorem allNames_eq : (g : Group) → g.allNames = g.tree.flatMap ownNames
  | ⟨_, _, imports, _, _⟩ => by rw [allNames, tree, List.flatMap_cons, allNamesIn_eq imports]; rfl

theorem allNamesIn_eq : (gs : List Group) → allNamesIn gs = (treeIn gs).flatMap ownNames
  | [] => rfl
  | g :: gs => by rw [allNamesIn, treeIn, List.flatMap_append, allNames_eq g, allNamesIn_eq gs]

end

theorem contains_eq (g : Group) (name : String) : g.contains name = ((listing g.tree).lookup name).isSome := by
  rw [contains, find?_eq_lookup]

/-- The names that are visible are those that the group contains. -/
theorem mem_visibleNames (g : Group) (name : String) : name ∈ g.visibleNames ↔ g.contains name = true := by
  rw [visibleNames, Dict.mem_union, List.flatten_singleton, allNames_eq, ← keys_listing, contains_eq]
  exact Dict.contains_iff.symm

mutual

/-- The renderer of a kind is that of the first group which has one. -/
theorem renderer?_eq (kind : ScalarKind) : (g : Group) →
    g.renderer? kind = g.tree.findSome? fun x => x.renderers.lookup kind
  | ⟨_, _, imports, _, renderers⟩ => by
      rw [renderer?, tree, List.findSome?_cons, rendererIn?_eq kind imports]
      cases renderers.lookup kind <;> rfl

theorem rendererIn?_eq (kind : ScalarKind) : (gs : List Group) →
    rendererIn? kind gs = (treeIn gs).findSome? fun x => x.renderers.lookup kind
  | [] => rfl
  | g :: gs => by
      rw [rendererIn?, treeIn, List.findSome?_append, renderer?_eq kind g, rendererIn?_eq kind gs]
      cases g.tree.findSome? fun x => x.renderers.lookup kind <;> rfl

end

/-! ## Resolving -/

/-- What a definition that was found is resolved to: what is kept of compiling it, or else what it compiles to against
the group that defines it. -/
def resolved (w : Workspace) (name : String) : Option (Group × Definition) → Except Unresolved (Group × Program)
  | none => .error .undefined
  | some (native, d) =>
    native.offer (match w.outcome? d.slot with
      | some outcome => outcome.program?
      | none => Program.of? native.directory name d.formals d.source)

theorem resolveFound_resolved (w : Workspace) (name : String) (found : Option (Group × Definition)) :
    ∃ w', (resolveFound name found).run w = (resolved w name found, w') := by
  cases found with
  | none => exact ⟨w, rfl⟩
  | some f =>
    obtain ⟨native, d⟩ := f
    rw [resolved]
    cases ho : w.outcome? d.slot with
    | some o => exact ⟨w, resolveFound_run (compiled_kept native name ho)⟩
    | none =>
      obtain ⟨_, v, hrun, -⟩ := compiled_fresh native name ho
      exact ⟨_, resolveFound_run hrun⟩

end Group

/-! ## What a host is told -/

namespace Host

variable {h : Host} {id name : String} {g : Group}

theorem observe_sourceOf (hg : h.group? id = some g) :
    h.observe (.sourceOf id name) = (.source (g.sourceOf? name), h) := by
  have hask : ((Observation.sourceOf id name).ask h.group? h.instance?).run h.workspace =
      ((.source (g.sourceOf? name), none), h.workspace) := by
    rw [Observation.ask, hg]
    rfl
  exact observe_run hask

theorem observe_names (hg : h.group? id = some g) : h.observe (.names id) = (.names g.visibleNames, h) := by
  have hask : ((Observation.names id).ask h.group? h.instance?).run h.workspace =
      ((.names g.visibleNames, none), h.workspace) := by
    rw [Observation.ask, hg]
    rfl
  exact observe_run hask

theorem observe_instantiate (hg : h.group? id = some g) (i : String) {r : Except GroupError (Group × Program)}
    {w : Workspace} (hr : (g.lookup name).run h.workspace = (r, w)) : (∀ native p, r = .ok (native, p) →
      (h.observe (.instantiate id i name)).1 = .text p.name ∧
        (h.observe (.instantiate id i name)).2.instance? i = some (.ofProgram g native p none)) ∧
      ∀ e, r = .error e → (h.observe (.instantiate id i name)).1 = .refused e := by
  constructor
  · rintro native p rfl
    have hask : ((Observation.instantiate id i name).ask h.group? h.instance?).run h.workspace =
        ((.text p.name, some (.ofProgram g native p none)), w) := by
      rw [Observation.ask, hg, Observation.ask.asking, StateT.run_bind, hr]
      rfl
    rw [observe_run hask]
    exact ⟨rfl, Handles.lookup_put_self _⟩
  · rintro e rfl
    have hask : ((Observation.instantiate id i name).ask h.group? h.instance?).run h.workspace =
        ((.refused e, none), w) := by
      rw [Observation.ask, hg, Observation.ask.asking, StateT.run_bind, hr]
      rfl
    rw [observe_run hask]

end Host

/-- What a host is told of a name in a group comes from the definition that was found, or from there being none. What is
inherited comes from another one. -/
structure Host.Tells (h : Host) (id : String) (g : Group) (name : String) (found inherited : Option (Group × Definition)) :
    Prop where
  contains : g.contains name = found.isSome
  visible : name ∈ g.visibleNames ↔ found.isSome = true
  source : (h.observe (.sourceOf id name)).1 = .source (found.map fun f => f.2.source)
  formals : g.formalsOf? name = found.map fun f => f.2.formals
  /-- What is checked of calls in templates of the group. -/
  checks : g.directory.find? ⟨name, false⟩ = found.map fun f => f.2.formals
  checksInherited : g.directory.find? ⟨name, true⟩ = inherited.map fun f => f.2.formals
  /-- What calls come to in renders. -/
  resolves : ((g.resolve name).run h.workspace).1 = Group.resolved h.workspace name found
  resolvesInherited : ((g.resolveInherited name).run h.workspace).1 = Group.resolved h.workspace name inherited
  /-- Programs are those of the definition, in the group that has it. -/
  means : Group.Means name found (Group.resolved h.workspace name found)
  meansInherited : Group.Means name inherited (Group.resolved h.workspace name inherited)
  lookup : (h.observe (.lookup id name)).1 =
    .ofLookup ((Group.resolved h.workspace name found).mapError (g.unresolvedError name))
  instantiates : ∀ i native p, Group.resolved h.workspace name found = .ok (native, p) →
    (h.observe (.instantiate id i name)).1 = .text p.name ∧
      (h.observe (.instantiate id i name)).2.instance? i = some (.ofProgram g native p none)
  refuses : ∀ i e, Group.resolved h.workspace name found = .error e →
    (h.observe (.instantiate id i name)).1 = .refused (g.unresolvedError name e)
  /-- A name is unknown if there is no definition of it, and only then. -/
  unknown : found = none ↔
    (h.observe (.lookup id name)).1 = .refused (.noSuchTemplate name (nearby name g.visibleNames))

/-- Whatever a host has done, all views of what a group finds for a name are of the first definition of the name in the
listing of the group and of what it imports; and what is inherited, of the first in the listing of the imports. The
names that are visible are in order without repetition. The renderer for a kind of scalars is that of the first
group among these which has one. -/
theorem directory_views (as : List Action) {id : String} {g : Group} (hg : (Host.empty.after as).group? id = some g)
    (name : String) (kind : ScalarKind) :
    let found := (Group.listing g.tree).lookup name
    let inherited := (Group.listing (Group.treeIn g.imports)).lookup name
    g.find? name = found ∧ g.findInherited? name = inherited ∧ (Host.empty.after as).Tells id g name found inherited ∧
      (Host.empty.after as).observe (.names id) = (.names g.visibleNames, Host.empty.after as) ∧
      g.visibleNames.Pairwise (· < ·) ∧ g.renderer? kind = g.tree.findSome? fun x => x.renderers.lookup kind := by
  intro found inherited
  obtain ⟨notes, hh⟩ := Host.Housed.empty.after as
  generalize Host.empty.after as = h at hg hh
  have hfound : g.find? name = found := g.find?_eq_lookup name
  have hinherited : g.findInherited? name = inherited := g.findInherited?_eq_lookup name
  have hnoted := hh.groups id g hg
  have hmeans (groups : List Group) (hgroups : ∀ x ∈ groups, Group.Noted notes x.templates) : Group.Means name
      ((Group.listing groups).lookup name) (Group.resolved h.workspace name ((Group.listing groups).lookup name)) := by
    obtain ⟨r, w, hr, -, hm⟩ := hh.filed.closest name hgroups
    obtain ⟨w', hr'⟩ := Group.resolveFound_resolved h.workspace name (Group.closest? name groups)
    rw [← Group.closest?_eq_lookup]
    cases hr.symm.trans hr'
    exact hm
  obtain ⟨w, hresolve⟩ := Group.resolveFound_resolved h.workspace name (g.find? name)
  have hlookup := Group.lookup_run hresolve
  rw [hfound] at hlookup
  have htold : (h.observe (.lookup id name)).1 =
      .ofLookup ((Group.resolved h.workspace name found).mapError (g.unresolvedError name)) := by
    rw [Host.observe_lookup hg hlookup]
  refine ⟨hfound, hinherited, ?_, Host.observe_names hg, Dict.sorted_union _, g.renderer?_eq kind⟩
  constructor
  case contains => rw [Group.contains, hfound]
  case visible => rw [g.mem_visibleNames, Group.contains, hfound]
  case source => rw [Host.observe_sourceOf hg, Group.sourceOf?, hfound]
  case formals => rw [Group.formalsOf?, hfound]
  case checks => exact (g.find?_directory ⟨name, false⟩).trans (congrArg _ hfound)
  case checksInherited => exact (g.find?_directory ⟨name, true⟩).trans (congrArg _ hinherited)
  case resolves => rw [Group.resolve, hresolve, hfound]
  case resolvesInherited =>
    obtain ⟨w', hr⟩ := Group.resolveFound_resolved h.workspace name (g.findInherited? name)
    rw [Group.resolveInherited, hr, hinherited]
  case means => exact hmeans _ hnoted
  case meansInherited => exact hmeans _ (Host.Housed.noted_iff.mp hnoted).2
  case lookup => exact htold
  case instantiates =>
    intro i native p hr
    exact (Host.observe_instantiate hg i hlookup).1 native p (by rw [hr]; rfl)
  case refuses =>
    intro i e hr
    exact (Host.observe_instantiate hg i hlookup).2 _ (by rw [hr]; rfl)
  case unknown =>
    rw [htold]
    have hm := hmeans _ hnoted
    change Group.Means name found _ at hm
    cases hr : Group.resolved h.workspace name found with
    | ok r =>
      obtain ⟨native, p⟩ := r
      rw [hr] at hm
      obtain ⟨d, hf, -⟩ := hm
      exact ⟨fun hn => (by cases hn.symm.trans hf), by rintro ⟨⟩⟩
    | error e =>
      rw [hr] at hm
      cases e with
      | undefined => exact ⟨fun _ => rfl, fun _ => hm⟩
      | compileFailed => exact ⟨fun hn => (by rw [hn] at hm; cases hm), by rintro ⟨⟩⟩

theorem directory_views_diamond :
    let as : List Action := [.build (.create "base" "base"), .build (.define "base" "page" (.ofNames ["title"]) "<title>"),
      .build (.create "left" "left"), .build (.importing "left" "base"),
      .build (.create "right" "right"), .build (.importing "right" "base"),
      .build (.define "right" "page" (.ofNames ["title"]) "<super.page(title)>!"),
      .build (.create "top" "top"), .build (.importing "top" "left"), .build (.importing "top" "right")]
    ∃ g, (Host.empty.after as).group? "top" = some g ∧
      let found := (Group.listing g.tree).lookup "page"
      let inherited := (Group.listing (Group.treeIn g.imports)).lookup "page"
      g.find? "page" = found ∧ g.findInherited? "page" = inherited ∧
        (Host.empty.after as).Tells "top" g "page" found inherited ∧
        (Host.empty.after as).observe (.names "top") = (.names g.visibleNames, Host.empty.after as) ∧
        g.visibleNames.Pairwise (· < ·) ∧ g.renderer? .int = g.tree.findSome? fun x => x.renderers.lookup .int := by
  intro as
  have hsome : ((Host.empty.after as).group? "top").isSome = true := by decide +kernel
  obtain ⟨g, hg⟩ := Option.isSome_iff_exists.mp hsome
  exact ⟨g, hg, directory_views as hg "page" .int⟩

end Stencil
