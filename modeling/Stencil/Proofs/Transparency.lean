import Stencil.Proofs.Coherence
/-! Compiling when it is first needed is transparent. What a host is told of a template depends on the
groups that it built, and not on what it asked before. -/

namespace Stencil

/-! ## Without slots -/

theorem Group.importing_unslotted (g other : Group) :
    (g.importing other).unslotted = g.unslotted.importing other.unslotted := by
  cases g with
  | mk group templates imports listener renderers =>
    rw [importing, unslotted, unslottedIn_append]
    rfl

theorem Group.listeningAt_unslotted (g : Group) (listener : Listener) :
    (g.listeningAt listener).unslotted = g.unslotted.listeningAt listener := by
  cases g
  rfl

theorem Group.registering_unslotted (g : Group) (kind : ScalarKind) (renderer : Renderer) :
    (g.registering kind renderer).unslotted = g.unslotted.registering kind renderer := by
  cases g
  rfl

/-- Groups get the same definition or refuse it alike. -/
theorem Group.define_unslotted {g g' : Group} (h : g.unslotted = g'.unslotted) (name : String) (formals : Formals)
    (source : String) (w w' : Workspace) :
    ((g.define name formals source).run w).1.toOption.map unslotted =
      ((g'.define name formals source).run w').1.toOption.map unslotted := by
  have hrefusal : g.refusal? name formals = g'.refusal? name formals := by
    rw [← g.refusal?_unslotted, h, g'.refusal?_unslotted]
  rw [define_run, define_run, hrefusal]
  cases g'.refusal? name formals with
  | some e => rfl
  | none =>
    exact congrArg some
      (defining_unslotted h name formals source (renewEach_unslotted _ _) (renewEach_unslotted _ _))

/-- Handles stand for groups that are the same but for slots. -/
def Resembles (groups groups' : String → Option Group) : Prop :=
  ∀ id, (groups id).map Group.unslotted = (groups' id).map Group.unslotted

/-- Handles that stand for groups in both. -/
theorem Resembles.both {groups groups' : String → Option Group} (h : Resembles groups groups') (id : String) :
    groups id = none ∧ groups' id = none ∨
      ∃ g g', groups id = some g ∧ groups' id = some g' ∧ g.unslotted = g'.unslotted := by
  have h := h id
  cases hg : groups id with
  | none =>
    rw [hg] at h
    exact .inl ⟨rfl, Option.map_eq_none_iff.mp h.symm⟩
  | some g =>
    rw [hg] at h
    obtain ⟨g', hg', he⟩ := Option.map_eq_some_iff.mp h.symm
    exact .inr ⟨g, g', rfl, hg', he.symm⟩

/-- Changes that do not look at slots give groups that are the same. -/
theorem Building.change_unslotted {o o' : Option Group} (h : o.map Group.unslotted = o'.map Group.unslotted)
    {f f' : Group → Group} (hf : ∀ g g', g.unslotted = g'.unslotted → (f g).unslotted = (f' g').unslotted) :
    (change f o).toOption.map Group.unslotted = (change f' o').toOption.map Group.unslotted := by
  cases o with
  | none =>
    cases o' with
    | none => rfl
    | some g' => cases h
  | some g =>
    cases o' with
    | none => cases h
    | some g' => exact congrArg some (hf g g' (Option.some.inj h))

/-- The same groups are made of groups that are the same but for slots. -/
theorem Building.make_unslotted {groups groups' : String → Option Group} (h : Resembles groups groups')
    (b : Building) (w w' : Workspace) :
    ((b.make groups).run w).1.toOption.map Group.unslotted =
      ((b.make groups').run w').1.toOption.map Group.unslotted := by
  cases b with
  | create id name => rfl
  | clone group id => exact change_unslotted (h group) fun _ _ he => he
  | define group name formals source =>
    rw [make, make]
    rcases h.both group with ⟨hg, hg'⟩ | ⟨g, g', hg, hg', he⟩
    · rw [hg, hg']
      rfl
    · rw [hg, hg']
      have hd := Group.define_unslotted he name formals source w w'
      rw [StateT.run_bind, StateT.run_bind]
      generalize (g.define name formals source).run w = r, (g'.define name formals source).run w' = r' at hd ⊢
      obtain ⟨_ | _, _⟩ := r <;> obtain ⟨_ | _, _⟩ := r' <;> first | rfl | cases hd | exact hd
  | importing group other =>
    rw [make, make]
    rcases h.both other with ⟨hk, hk'⟩ | ⟨k, k', hk, hk', hsame⟩
    · rw [hk, hk']
      rfl
    · rw [hk, hk']
      exact change_unslotted (h group) fun g g' he => by
        rw [Group.importing_unslotted, he, hsame, ← Group.importing_unslotted]
  | listening group listener =>
    exact change_unslotted (h group) fun g g' he => by
      rw [Group.listeningAt_unslotted, he, ← Group.listeningAt_unslotted]
  | registering group kind renderer =>
    exact change_unslotted (h group) fun g g' he => by
      rw [Group.registering_unslotted, he, ← Group.registering_unslotted]

/-! ## Looking up -/

theorem Group.freshAnswer_unslotted (g : Group) (name : String) :
    g.unslotted.freshAnswer name = g.freshAnswer name := by
  have herror (e : Unresolved) : g.unslotted.unresolvedError name e = g.unresolvedError name e := by
    cases e with
    | undefined => rw [unresolvedError, unresolvedError, visibleNames_unslotted]
    | compileFailed => rfl
  rw [freshAnswer, freshAnswer, find?_unslotted]
  cases g.find? name with
  | none => exact congrArg Answer.refused (herror _)
  | some found =>
    obtain ⟨native, d⟩ := found
    rw [Option.map_some, unslottedFound, freshly, freshly, directory_unslotted]
    change Answer.ofLookup (Except.mapError _ (offer _ (Program.of? native.directory name d.formals d.source))) = _
    cases Program.of? native.directory name d.formals d.source with
    | none => exact congrArg Answer.refused (herror _)
    | some program => rfl

namespace Host

variable {h h₀ : Host} {id name : String} {g : Group}

/-- A host that has compiled nothing is told what compiling on the spot gives. -/
theorem unused_lookup_answer (hw : ∀ slot, h.workspace.outcome? slot = none) (hg : h.group? id = some g)
    (name : String) : (h.observe (.lookup id name)).1 = g.freshAnswer name := by
  have hr : ∃ w, (Group.resolveFound name (g.find? name)).run h.workspace =
      (Group.freshly name (g.find? name), w) := by
    cases g.find? name with
    | none => exact ⟨_, rfl⟩
    | some found =>
      obtain ⟨outcome, v, hrun, -⟩ := Group.compiled_fresh found.1 name (hw found.2.slot)
      exact ⟨_, Group.resolveFound_run hrun⟩
  obtain ⟨w, hw⟩ := hr
  rw [observe_lookup hg (Group.lookup_run hw)]
  rfl

/-! ## Histories -/

/-- A host that has compiled nothing, with groups that are the same but for slots. -/
structure Rebuilt (h h₀ : Host) : Prop where
  groups : Resembles h.group? h₀.group?
  unused : ∃ notes, h₀.workspace.Unused notes

/-- Nothing is compiled when a group is made. -/
theorem make_unused {notes : List Making} (hw : h.workspace.Unused notes) (b : Building) :
    ∃ notes', ((b.make h.group?).run h.workspace).2.Unused notes' := by
  cases b with
  | create id name => exact ⟨notes, hw⟩
  | define group name formals source =>
    rw [Building.make]
    cases h.group? group with
    | none => exact ⟨notes, hw⟩
    | some g =>
      obtain ⟨more, hr, -⟩ := Group.renewEach_noted hw g.templates
      change ∃ notes', ((g.define name formals source).run h.workspace).2.Unused notes'
      rw [Group.define_run]
      split
      · exact ⟨notes, hw⟩
      · exact ⟨_, hr.push _ _ (name, formals, source)⟩
  | importing group other =>
    rw [Building.make]
    cases h.group? other <;> exact ⟨notes, hw⟩
  | clone group id | listening group listener | registering group kind renderer => exact ⟨notes, hw⟩

namespace Rebuilt

theorem build (hr : Rebuilt h h₀) (b : Building) : Rebuilt (h.build b).2 (h₀.build b).2 where
  groups id := by
    have hm := Building.make_unslotted hr.groups b h.workspace h₀.workspace
    rw [Host.build_group?, Host.build_group?]
    generalize ((b.make h.group?).run h.workspace).1.toOption = made,
      ((b.make h₀.group?).run h₀.workspace).1.toOption = made₀ at hm ⊢
    cases made with
    | none =>
      cases made₀ with
      | none => exact hr.groups id
      | some g₀ => cases hm
    | some g =>
      cases made₀ with
      | none => cases hm
      | some g₀ =>
        by_cases he : id = b.target
        · rw [he, Handles.update, Handles.update, Handles.lookup_put_self, Handles.lookup_put_self]
          exact hm
        · rw [Handles.lookup_update_of_ne _ _ he, Handles.lookup_update_of_ne _ _ he]
          exact hr.groups id
  unused := by
    obtain ⟨notes, hw⟩ := hr.unused
    exact make_unused hw b

/-- Only what builds groups matters. -/
theorem after (hr : Rebuilt h h₀) (as : List Action) :
    Rebuilt (h.after as) (h₀.after (as.filter Action.isBuilding)) := by
  induction as generalizing h h₀ with
  | nil => exact hr
  | cons a as ih =>
    cases a with
    | build b => exact ih (hr.build b)
    | observe o => exact ih ⟨hr.groups, hr.unused⟩

end Rebuilt

/-- Lazy compilation is transparent. After any history in which imports come in time, looking up a template
gives what it gives after the same groups were built and nothing was asked. -/
theorem lookup_transparent (as : List Action) (ha : Host.empty.allowsAll as = true) (id name : String) :
    ((Host.empty.after as).observe (.lookup id name)).1 =
      ((Host.empty.after (as.filter Action.isBuilding)).observe (.lookup id name)).1 := by
  obtain ⟨ledger, hc⟩ := empty_coherent.after as ha
  have hr : Rebuilt (Host.empty.after as) (Host.empty.after (as.filter Action.isBuilding)) :=
    Rebuilt.after ⟨fun _ => rfl, [], rfl, fun _ => rfl⟩ as
  obtain ⟨notes, hw⟩ := hr.unused
  rcases hr.groups.both id with ⟨hg, hg₀⟩ | ⟨g, g₀, hg, hg₀, he⟩
  · unfold observe
    rw [Observation.ask, Observation.ask, hg, hg₀]
    rfl
  · rw [hc.lookup_answer hg, unused_lookup_answer hw.outcome hg₀, ← g.freshAnswer_unslotted, he,
      g₀.freshAnswer_unslotted]

/-- A site that imports the body of its page after other templates were compiled and rendered. -/
def siteHistory : List Action :=
  [.build (.create "site" "site"), .build (.define "site" "page" (.ofNames []) "[<body()>]"),
    .build (.define "site" "footer" (.ofNames []) "bye"), .build (.create "parts" "parts"),
    .build (.define "parts" "body" (.ofNames []) "text"), .observe (.lookup "site" "footer"),
    .observe (.instantiate "parts" "part" "body"), .observe (.render "part" {} none),
    .build (.importing "site" "parts"), .observe (.instantiate "site" "home" "page"),
    .observe (.render "home" {} none), .build (.define "site" "header" (.ofNames []) "hi")]

theorem lookup_transparent_site : Host.empty.allowsAll siteHistory = true ∧
    ((Host.empty.after siteHistory).observe (.lookup "site" "page")).1 =
      ((Host.empty.after (siteHistory.filter Action.isBuilding)).observe (.lookup "site" "page")).1 :=
  ⟨by decide +kernel, lookup_transparent siteHistory (by decide +kernel) "site" "page"⟩

/-! ## Imports that come late -/

variable {ledger : List Note} {other : String} {k : Group} {d : Definition} {p : Program}

/-- A failure that was kept stays when an import mends the definition, though compiling on the spot would not
fail any more. -/
theorem Coherent.late_import (hc : h.Coherent ledger) (hg : h.group? id = some g) (hk : h.group? other = some k)
    (hd : Dict.find? g.templates name = some d)
    (hfailed : Program.of? g.directory name d.formals d.source = none)
    (hmended : Program.of? (g.importing k).directory name d.formals d.source = some p)
    (hkept : h.workspace.outcome? d.slot ≠ none) :
    ((h.build (.importing id other)).2.observe (.lookup id name)).1 = .refused (.compileFailed [name]) ∧
      (g.importing k).freshAnswer name = .template p := by
  constructor
  · obtain ⟨o, ho⟩ := Option.ne_none_iff_exists'.mp hkept
    obtain ⟨n, hn, hprogram, -⟩ := hc.agrees.outcome _ _ ho
    cases (hc.groups id g hg g g.mem_tree _ (Dict.mem_of_find? hd)).symm.trans hn
    have hnone : o.program? = none := hprogram.trans hfailed
    have hget : (h.build (.importing id other)).2.group? id = some (g.importing k) := by
      rw [build_importing hg hk]
      exact Handles.lookup_put_self h.groups
    rw [build_importing hg hk] at hget ⊢
    rw [observe_lookup hget (Group.lookup_own hd (Group.compiled_kept _ name ho)), hnone]
    rfl
  · have hfind : (g.importing k).find? name = some (g.importing k, d) := by
      cases g
      rw [Group.importing, Group.find?, hd]
    rw [Group.freshAnswer, hfind, Group.freshly, hmended]
    rfl

example :
    (match ((Host.empty.after
        [.build (.create "site" "site"), .build (.define "site" "page" (.ofNames []) "[<body()>]"),
          .observe (.lookup "site" "page"), .build (.create "parts" "parts"),
          .build (.define "parts" "body" (.ofNames []) "text"), .build (.importing "site" "parts")]).observe
            (.lookup "site" "page")).1 with
      | .refused e => e.message
      | _ => "") = "failed to compile: page" := by
  decide +kernel

end Host

end Stencil
