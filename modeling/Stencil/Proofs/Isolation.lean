import Stencil.Proofs.Coherence
/-! Handles are isolated. What is done with the handles of one side, others do not see, even if their
groups share definitions and what is kept of compiling them. -/

namespace Stencil

namespace Host

variable {side : String → Bool} {h h' : Host} {ledger ledger' : List Note}

/-- Two hosts that differ in the handles of one side alone. What is kept of compiling may differ too, as long
as it is what compiling on the spot would give. -/
structure Apart (side : String → Bool) (h h' : Host) (ledger ledger' : List Note) : Prop where
  coherent : h.Coherent ledger
  agrees : h'.workspace.Agrees ledger'
  groups : ∀ id, side id = false →
    h.group? id = h'.group? id ∧ ∀ g, h'.group? id = some g → ∀ x ∈ g.tree, x.Recorded ledger'
  instances : ∀ id, side id = false →
    h.instance? id = h'.instance? id ∧ ∀ i, h'.instance? id = some i → ∀ x ∈ i.groups, x.Recorded ledger'

/-- A coherent host beside itself. -/
theorem Coherent.apart (hc : h.Coherent ledger) : Apart side h h ledger ledger :=
  ⟨hc, hc.agrees, fun id _ => ⟨rfl, hc.groups id⟩, fun id _ => ⟨rfl, hc.instances id⟩⟩

namespace Apart

/-- What is done on the one side leaves the other as it was. -/
theorem act (ha : Apart side h h' ledger ledger') (a : Action) (hs : side a.target = true)
    (hallow : h.allows a = true) : ∃ ledger₁, Apart side (h.perform a).2 h' ledger₁ ledger' := by
  have hne {id : String} (hid : side id = false) : id ≠ a.target := by
    rintro rfl
    cases hid.symm.trans hs
  obtain ⟨ledger₁, hc⟩ := ha.coherent.perform a hallow
  refine ⟨ledger₁, hc, ha.agrees, fun id hid => ?_, fun id hid => ?_⟩
  · refine ⟨?_, (ha.groups id hid).2⟩
    rw [← (ha.groups id hid).1]
    cases a with
    | build b => exact (h.build_group? b id).trans (Handles.lookup_update_of_ne _ _ (hne hid))
    | observe o => rfl
  · refine ⟨?_, (ha.instances id hid).2⟩
    rw [← (ha.instances id hid).1]
    cases a with
    | build b => rfl
    | observe o => exact (h.observe_instance? o id).trans (Handles.lookup_update_of_ne _ _ (hne hid))

/-- The other side is answered the same in both hosts. -/
theorem observe (ha : Apart side h h' ledger ledger') (o : Observation)
    (hs : ∀ id ∈ o.handles, side id = false) : (h.observe o).1 = (h'.observe o).1 ∧
      Apart side (h.observe o).2 (h'.observe o).2 ledger ledger' := by
  have hask : o.ask h.group? h.instance? = o.ask h'.group? h'.instance? :=
    o.ask_congr fun id hid => ⟨(ha.groups id (hs id hid)).1, (ha.instances id (hs id hid)).1⟩
  have hgroups (id : String) (hid : id ∈ o.handles) (g : Group) (hg : h'.group? id = some g) :
      ∀ x ∈ g.tree, x.Recorded ledger ∧ x.Recorded ledger' := by
    obtain ⟨hsame, hr⟩ := ha.groups id (hs id hid)
    exact fun x hx => ⟨ha.coherent.groups id g (hsame.trans hg) x hx, hr g hg x hx⟩
  have hinstances (id : String) (hid : id ∈ o.handles) (i : Instance) (hi : h'.instance? id = some i) :
      ∀ x ∈ i.groups, x.Recorded ledger ∧ x.Recorded ledger' := by
    obtain ⟨hsame, hr⟩ := ha.instances id (hs id hid)
    exact fun x hx => ⟨ha.coherent.instances id i (hsame.trans hi) x hx, hr i hi x hx⟩
  obtain ⟨⟨answer, made⟩, w, w', hw, hw', hmade, -, hagrees⟩ :=
    Steady.ask (fun _ hg => hg.1) (fun _ hg => hg.2) o hgroups hinstances _ _ ha.coherent.agrees ha.agrees
  have hw := observe_run (h := h) (hask ▸ hw)
  have hw' := observe_run (h := h') hw'
  refine ⟨by rw [hw, hw'], ha.coherent.observe o, ?_, fun id hid => ?_, fun id hid => ?_⟩
  · rw [hw']
    exact hagrees
  · rw [hw, hw']
    exact ha.groups id hid
  · rw [hw, hw']
    refine ⟨Handles.lookup_update_congr made (ha.instances id hid).1, fun i hi x hx => ?_⟩
    rcases Handles.of_lookup_update hi with ⟨hi, -⟩ | ⟨hi, -⟩
    · exact (hmade i hi x hx).2
    · exact (ha.instances id hid).2 i hi x hx

/-- All that the other side is answered is the same without what is done on the one side. -/
theorem answers (ha : Apart side h h' ledger ledger') (as : List Action) (hallow : h.allowsAll as = true)
    (hs : as.all (·.respects side) = true) : h.answers (fun a => !side a.target) as =
      h'.answers (fun a => !side a.target) (as.filter fun a => !side a.target) := by
  induction as generalizing h h' ledger ledger' with
  | nil => rfl
  | cons a as ih =>
    rw [allowsAll, Bool.and_eq_true] at hallow
    rw [List.all_cons, Bool.and_eq_true] at hs
    rw [answers_cons, List.filter_cons]
    cases hside : side a.target with
    | true =>
      obtain ⟨ledger₁, ha⟩ := ha.act a hside hallow.1
      exact ih ha hallow.2 hs.2
    | false =>
      cases a with
      | build b => cases hside.symm.trans hs.1
      | observe o =>
        have huses : ∀ id ∈ o.handles, side id = false := by
          have hr := hs.1
          rw [Action.respects, show side o.target = false from hside, Bool.false_or, List.all_eq_true] at hr
          exact fun id hid => by simpa using hr id hid
        obtain ⟨hanswer, ha⟩ := ha.observe o huses
        rw [Bool.not_false, if_pos rfl, if_pos rfl, answers_cons, hside, Bool.not_false, if_pos rfl]
        exact congrArg₂ List.cons hanswer (ih ha hallow.2 hs.2)

end Apart

/-- Handles are isolated. After any history, what is asked of handles is answered as if nothing had been
done with those of one side, if imports come in time. -/
theorem handles_isolated (before as : List Action) (side : String → Bool)
    (ha : Host.empty.allowsAll (before ++ as) = true) (hs : as.all (·.respects side) = true) :
    (Host.empty.after before).answers (fun a => !side a.target) as =
      (Host.empty.after before).answers (fun a => !side a.target) (as.filter fun a => !side a.target) := by
  rw [allowsAll_append, Bool.and_eq_true] at ha
  obtain ⟨ledger, hc⟩ := empty_coherent.after before ha.1
  exact hc.apart.answers as ha.2 hs

/-- A site with an instance of its page, and a draft that is a copy of it. -/
def siteBefore : List Action :=
  [.build (.create "site" "site"), .build (.define "site" "title" (.ofNames []) "T"),
    .build (.define "site" "page" (.ofNames []) "[<title()>]"), .observe (.instantiate "site" "home" "page"),
    .build (.clone "site" "draft"), .build (.create "parts" "parts"),
    .build (.define "parts" "body" (.ofNames []) "text")]

/-- Work on the draft, while the site and its page are used. -/
def draftHistory : List Action :=
  [.build (.define "draft" "index" (.ofNames []) "<page()><body()>"), .observe (.compileAll "site"),
    .build (.importing "draft" "parts"), .build (.listening "draft" (.named "editor")),
    .observe (.instantiate "draft" "sketch" "index"), .observe (.render "home" {} none),
    .observe (.render "sketch" {} none), .observe (.lookup "site" "page"), .observe (.names "site")]

/-- The handles of the draft. -/
def isDraft (id : String) : Bool := id == "draft" || id == "sketch"

theorem handles_isolated_draft : Host.empty.allowsAll (siteBefore ++ draftHistory) = true ∧
    draftHistory.all (·.respects isDraft) = true ∧
    (Host.empty.after siteBefore).answers (fun a => !isDraft a.target) draftHistory =
      (Host.empty.after siteBefore).answers (fun a => !isDraft a.target)
        (draftHistory.filter fun a => !isDraft a.target) :=
  ⟨by decide +kernel, by decide +kernel,
    handles_isolated siteBefore draftHistory isDraft (by decide +kernel) (by decide +kernel)⟩

/-! ## Imports that come late -/

variable {id name other twin : String} {g k t : Group} {d e : Definition} {p : Program}

/-- An import that mends a definition mends it for another handle too, as soon as it is compiled: that
handle's group shares what is kept of compiling, but not the import. -/
theorem Coherent.shared_import (hc : h.Coherent ledger) (hg : h.group? id = some g) (hk : h.group? other = some k)
    (hd : Dict.find? g.templates name = some d)
    (hfailed : Program.of? g.directory name d.formals d.source = none)
    (hmended : Program.of? (g.importing k).directory name d.formals d.source = some p) (ht : h.group? twin = some t)
    (hne : twin ≠ id) (he : Dict.find? t.templates name = some e) (hslot : e.slot = d.slot)
    (hfresh : h.workspace.outcome? d.slot = none) :
    (h.observe (.lookup twin name)).1 = .refused (.compileFailed [name]) ∧
      (((h.build (.importing id other)).2.observe (.lookup id name)).2.observe (.lookup twin name)).1 =
        .template p := by
  have hnote := hc.groups id g hg g g.mem_tree _ (Dict.mem_of_find? hd)
  have hnote' := hc.groups twin t ht t t.mem_tree _ (Dict.mem_of_find? he)
  constructor
  · have hnone : Program.of? t.directory name e.formals e.source = none := by
      rw [hslot, hnote] at hnote'
      exact (congrArg Note.program (Option.some.inj hnote')).symm.trans hfailed
    obtain ⟨w, hw, -⟩ := hc.agrees.compiled (hc.groups twin t ht t t.mem_tree) (Dict.mem_of_find? he)
    rw [observe_lookup ht (Group.lookup_own he hw), hnone]
    rfl
  · obtain ⟨outcome, v, hrun, hv, hprogram, -⟩ := Group.compiled_fresh (g.importing k) name hfresh
    have hsize : d.slot < v.slots.size := by
      rw [hv, hc.agrees.size]
      exact (List.getElem?_eq_some_iff.mp hnote).1
    have hsettled : (v.settle d.slot outcome).outcome? e.slot = some outcome := by
      rw [Workspace.outcome?_settle, if_pos ⟨hslot.symm, hsize⟩]
    have hlookup := Group.lookup_own (g := g.importing k) hd hrun
    have hkept := Group.lookup_own he (Group.compiled_kept t name hsettled)
    rw [hprogram, hmended] at hkept
    -- the one handle compiles the definition, and the other is given what that left
    have hone : Host.group? ⟨Handles.put id (g.importing k) h.groups, h.instances, h.workspace⟩ id =
        some (g.importing k) := Handles.lookup_put_self h.groups
    have hother (w : Workspace) : Host.group? ⟨Handles.put id (g.importing k) h.groups, h.instances, w⟩ twin =
        some t := (Handles.lookup_put_of_ne h.groups hne).trans ht
    rw [build_importing hg hk, observe_lookup hone hlookup]
    exact congrArg Prod.fst (observe_lookup (hother (v.settle d.slot outcome)) hkept)

end Host

end Stencil
