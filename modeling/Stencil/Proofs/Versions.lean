import Stencil.Proofs.Evaluator
import Stencil.Proofs.Imports
import Stencil.Proofs.Ledger
import Stencil.Proofs.Rephrasing
/-! Groups in two versions, which differ in the words of their templates. Both find the same names, and templates that
are found compile in both versions or in none. -/

namespace Stencil

/-! ## Programs and definitions -/

theorem rel_of_isSome {α β : Type} {R : α → β → Prop} {o : Option α} {o' : Option β} (h : o.isSome = o'.isSome)
    (hR : ∀ a b, o = some a → o' = some b → R a b) : Option.Rel R o o' := by
  cases o with
  | none =>
    cases o' with
    | none => exact .none
    | some b => cases h
  | some a =>
    cases o' with
    | none => cases h
    | some b => exact .some (hR a b rfl rfl)

theorem Template.Gives.of_compile {d : Directory} {name source : String} {formals : Formals} {t : Template} {p : Program}
    (hr : Template.read name formals source = .ok t) (hp : Program.of? d name formals source = some p) : t.Gives p := by
  obtain ⟨t', hr', -, ht, rfl, rfl, rfl⟩ := Program.of_compile (Program.of?_eq_some.mp hp)
  cases hr.symm.trans hr'
  exact ⟨.ofRead hr, ht, fun _ => hr⟩

/-- Programs that are made from trees in other words. -/
def Program.Rephrased (N : Naming) (p p' : Program) : Prop :=
  ∃ t t' : Template, t.Gives p ∧ t'.Gives p' ∧ t.Rephrased N t'

theorem Program.Rephrased.formals {N : Naming} {p p' : Program} (h : p.Rephrased N p') : p.formals.Same p'.formals := by
  obtain ⟨t, t', hp, hp', ht⟩ := h
  have hf : t.formals = p.formals := congrArg Code.formals hp.code
  have hf' : t'.formals = p'.formals := congrArg Code.formals hp'.code
  exact hf ▸ hf' ▸ ht.formals

/-- Definitions of a name in other words. What cannot be read is the same in both versions. -/
inductive Definition.Rephrased (N : Naming) (name : String) (d d' : Definition) : Prop where
  | same (formals : d.formals = d'.formals) (source : d.source = d'.source)
  | read {t t'} (read : Template.read name d.formals d.source = .ok t)
      (read' : Template.read name d'.formals d'.source = .ok t') (rephrased : t.Rephrased N t')

namespace Definition.Rephrased

variable {N : Naming} {name : String} {d d' : Definition}

theorem refl (d : Definition) : d.Rephrased N name d := .same rfl rfl

theorem formals (h : d.Rephrased N name d') : d.formals.Same d'.formals := by
  cases h with
  | same formals _ => exact formals ▸ .refl _
  | read hr hr' h => exact (Template.of_read hr).2.1 ▸ (Template.of_read hr').2.1 ▸ h.formals

/-- Both definitions compile, to programs in other words, or none does. -/
theorem compiles (h : d.Rephrased N name d') {e e' : Directory} (hd : e.Same e') (hN : N.Fits e) :
    Option.Rel (Program.Rephrased N) (Program.of? e name d.formals d.source)
      (Program.of? e' name d'.formals d'.source) := by
  have hread {t t' : Template} (hr : Template.read name d.formals d.source = .ok t)
      (hr' : Template.read name d'.formals d'.source = .ok t') (ht : t.Rephrased N t') :
      Option.Rel (Program.Rephrased N) (Program.of? e name d.formals d.source)
        (Program.of? e' name d'.formals d'.source) :=
    rel_of_isSome (Program.of?_rephrased hr hr' ht hd hN) fun p p' hp hp' =>
      ⟨t, t', .of_compile hr hp, .of_compile hr' hp', ht⟩
  cases h with
  | read hr hr' h => exact hread hr hr' h
  | same hf hs =>
    cases hr : Template.read name d.formals d.source with
    | ok t => exact hread hr (hf ▸ hs ▸ hr) (.refl t)
    | error e =>
      have hnone (e : Directory) : Program.of? e name d.formals d.source = none := by
        unfold Program.of? Program.compile
        split
        · rfl
        · rename_i ht
          cases hr.symm.trans ht
      rw [← hf, ← hs, hnone, hnone]
      exact .none

end Definition.Rephrased

/-! ## Groups -/

/-- The names of parameters by which the templates of a group may pass arguments, in renders whose outermost group is
another one: the callee takes them where it is compiled and where it is looked up. -/
def Group.naming (root g : Group) : Naming := fun callee names =>
  g.directory.Takes callee names ∧ (callee.inherited = false → root.directory.Takes callee names)

theorem Group.naming_fits (root g : Group) : (root.naming g).Fits g.directory := fun _ _ h => h.1

mutual

/-- Groups that have the same names and imports and the same renderers, but their templates in other words. -/
inductive Group.Rephrases (root : Group) : Group → Group → Prop where
  | mk {g g' : Group} (templates : List.Forall₂ (fun e e' => e.1 = e'.1 ∧ e.2.Rephrased (root.naming g) e.1 e'.2)
      g.templates g'.templates) (imports : Group.RephrasesAll root g.imports g'.imports)
      (renderers : g.renderers = g'.renderers) : Group.Rephrases root g g'

inductive Group.RephrasesAll (root : Group) : List Group → List Group → Prop where
  | nil : Group.RephrasesAll root [] []
  | cons {g g' gs gs'} : Group.Rephrases root g g' → Group.RephrasesAll root gs gs' →
      Group.RephrasesAll root (g :: gs) (g' :: gs')

end

variable {root g g' : Group} {gs gs' : List Group}

/-- What is found for a name in two versions. -/
abbrev Group.FoundRephrased (root : Group) (name : String) :
    Option (Group × Definition) → Option (Group × Definition) → Prop :=
  Option.Rel fun f f' => root.Rephrases f.1 f'.1 ∧ f.2.Rephrased (root.naming f.1) name f'.2

theorem Dict.find?_rel {α β : Type} {P : String → α → β → Prop} {d : Dict α} {d' : Dict β}
    (h : List.Forall₂ (fun e e' => e.1 = e'.1 ∧ P e.1 e.2 e'.2) d d') (key : String) :
    Option.Rel (P key) (d.find? key) (d'.find? key) := by
  induction h with
  | nil => exact .none
  | @cons e e' _ _ he _ ih =>
    obtain ⟨k, a⟩ := e
    obtain ⟨k', b⟩ := e'
    obtain ⟨rfl, hab⟩ : k = k' ∧ P k a b := he
    cases hk : key == k with
    | true =>
      cases LawfulBEq.eq_of_beq hk
      simpa [Dict.find?, List.lookup_cons] using Option.Rel.some hab
    | false => simpa [Dict.find?, List.lookup_cons, hk] using ih

mutual

theorem Group.Rephrases.find? (name : String) : {g g' : Group} → root.Rephrases g g' →
    Group.FoundRephrased root name (g.find? name) (g'.find? name)
  | ⟨_, templates, imports, _, _⟩, ⟨_, templates', imports', _, _⟩, .mk ht hi hr => by
      have hown := Dict.find?_rel ht name
      have hin := hi.findIn? name
      rw [Group.find?, Group.find?]
      dsimp only at hown hin
      generalize Dict.find? templates name = o, Dict.find? templates' name = o' at hown
      cases hown with
      | none => exact hin
      | some hd => exact .some ⟨.mk ht hi hr, hd⟩

theorem Group.RephrasesAll.findIn? (name : String) : {gs gs' : List Group} → root.RephrasesAll gs gs' →
    Group.FoundRephrased root name (Group.findIn? name gs) (Group.findIn? name gs')
  | [], [], .nil => .none
  | g :: _, g' :: _, .cons hg hgs => by
      have hfirst := hg.find? name
      rw [Group.findIn?, Group.findIn?]
      generalize g.find? name = o, g'.find? name = o' at hfirst
      cases hfirst with
      | none => exact hgs.findIn? name
      | some hf => exact .some hf

end

mutual

theorem Group.Rephrases.renderer?_eq (kind : ScalarKind) : {g g' : Group} → root.Rephrases g g' →
    g.renderer? kind = g'.renderer? kind
  | ⟨_, _, _, _, renderers⟩, ⟨_, _, _, _, renderers'⟩, .mk _ hi hr => by
      obtain rfl : renderers = renderers' := hr
      have hin := hi.rendererIn?_eq kind
      dsimp only at hin
      rw [Group.renderer?, Group.renderer?, hin]

theorem Group.RephrasesAll.rendererIn?_eq (kind : ScalarKind) : {gs gs' : List Group} → root.RephrasesAll gs gs' →
    Group.rendererIn? kind gs = Group.rendererIn? kind gs'
  | _, _, .nil => rfl
  | _, _, .cons hg hgs => by
      rw [Group.rendererIn?, Group.rendererIn?, hg.renderer?_eq kind, hgs.rendererIn?_eq kind]

end

/-- What a callee means in both versions of the group that it is written in. -/
theorem Group.Rephrases.findCallee? (h : root.Rephrases g g') (callee : Callee) :
    Group.FoundRephrased root callee.name (g.findCallee? callee) (g'.findCallee? callee) := by
  rw [Group.findCallee?, Group.findCallee?]
  split
  · cases h with
    | mk _ hi _ => exact hi.findIn? _
  · exact h.find? _

theorem Group.Rephrases.directory (h : root.Rephrases g g') : g.directory.Same g'.directory := by
  intro callee
  rw [Group.find?_directory, Group.find?_directory]
  have hf := h.findCallee? callee
  generalize g.findCallee? callee = o, g'.findCallee? callee = o' at hf
  cases hf with
  | none => exact .none
  | some hd => exact .some hd.2.formals

/-! ## What is compiled on the spot -/

/-- What resolving gives in two versions. -/
inductive Group.Resolved (root : Group) : Except Unresolved (Group × Program) → Except Unresolved (Group × Program) →
    Prop where
  | error (e) : Group.Resolved root (.error e) (.error e)
  | ok {g g' p p'} (group : root.Rephrases g g') (program : p.Rephrased (root.naming g) p') :
      Group.Resolved root (.ok (g, p)) (.ok (g', p'))

theorem Group.FoundRephrased.freshly {name : String} {found found' : Option (Group × Definition)}
    (h : Group.FoundRephrased root name found found') :
    Group.Resolved root (Group.freshly name found) (Group.freshly name found') := by
  cases h with
  | none => exact .error _
  | @some f f' hf =>
    obtain ⟨g, d⟩ := f
    obtain ⟨g', d'⟩ := f'
    obtain ⟨hg, hd⟩ := hf
    have hp := hd.compiles hg.directory (root.naming_fits g)
    rw [Group.freshly, Group.freshly]
    dsimp only at hp ⊢
    generalize Program.of? g.directory name d.formals d.source = o,
      Program.of? g'.directory name d'.formals d'.source = o' at hp
    cases hp with
    | none => exact .error _
    | some hp => exact .ok hg hp

/-- A program has the parameters of its definition. -/
theorem Group.formals_of_freshly {name : String} {found : Option (Group × Definition)} {native : Group}
    {program : Program} (h : freshly name found = .ok (native, program)) :
    found.map (fun f => f.2.formals) = some program.formals := by
  cases found with
  | none => cases h
  | some f =>
    obtain ⟨group, d⟩ := f
    rw [freshly] at h
    cases ho : Program.of? group.directory name d.formals d.source with
    | none =>
      rw [ho] at h
      cases h
    | some p =>
      rw [ho] at h
      cases h
      obtain ⟨-, -, -, -, -, hf, -⟩ := Program.of_compile (Program.of?_eq_some.mp ho)
      exact congrArg some hf.symm

end Stencil
