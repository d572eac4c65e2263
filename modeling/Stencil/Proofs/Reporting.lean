import Stencil.Proofs.Compilation
import Stencil.Proofs.Ledger
/-! What is reported of definitions that do not compile. Each definition has one list of reports, however
often it is compiled, so a text that was delivered for it is not delivered again. -/

namespace Stencil

/-! ## New texts -/

/-- Those of some diagnostics that have a new text, each text once. -/
def Diagnostic.unseen (seen : List String) : List Diagnostic → List Diagnostic
  | [] => []
  | d :: ds => if seen.contains d.display then unseen seen ds else d :: unseen (d.display :: seen) ds

namespace Diagnostic

/-- The texts that were seen, the last ones first, when those of some diagnostics are seen, too. -/
def texts (seen : List String) (ds : List Diagnostic) : List String := (ds.map display).reverse ++ seen

theorem texts_cons (seen : List String) (d : Diagnostic) (ds : List Diagnostic) :
    texts seen (d :: ds) = texts (d.display :: seen) ds := by
  simp [texts]

theorem texts_append (seen : List String) (ds ds' : List Diagnostic) :
    texts seen (ds ++ ds') = texts (texts seen ds) ds' := by
  simp [texts]

theorem mem_texts {ds : List Diagnostic} {text : String} : text ∈ texts [] ds ↔ text ∈ ds.map display := by
  simp [texts]

theorem nodup_texts_iff {ds : List Diagnostic} : (texts [] ds).Nodup ↔ (ds.map display).Nodup := by
  rw [texts, List.append_nil]
  exact (List.reverse_perm _).nodup_iff

theorem unseen_subset (seen : List String) (ds : List Diagnostic) : unseen seen ds ⊆ ds := by
  fun_induction unseen seen ds with
  | case1 => exact List.Subset.refl _
  | case2 seen d ds _ ih => exact fun x hx => List.mem_cons_of_mem _ (ih hx)
  | case3 seen d ds _ ih => exact List.cons_subset_cons _ ih

/-- All texts were seen in the end. -/
theorem display_mem_unseen {seen : List String} {ds : List Diagnostic} {d : Diagnostic} (h : d ∈ ds) :
    d.display ∈ texts seen (unseen seen ds) := by
  fun_induction unseen seen ds with
  | case1 => cases h
  | case2 seen x ds hseen ih =>
    rcases List.mem_cons.mp h with rfl | h
    · exact List.mem_append_right _ (List.contains_iff_mem.mp hseen)
    · exact ih h
  | case3 seen x ds _ ih =>
    rw [texts_cons]
    rcases List.mem_cons.mp h with rfl | h
    · exact List.mem_append_right _ List.mem_cons_self
    · exact ih h

theorem nodup_unseen {seen : List String} (h : seen.Nodup) (ds : List Diagnostic) :
    (texts seen (unseen seen ds)).Nodup := by
  fun_induction unseen seen ds with
  | case1 => exact h
  | case2 seen d ds _ ih => exact ih h
  | case3 seen d ds hseen ih =>
    rw [texts_cons]
    exact ih (List.nodup_cons.mpr ⟨fun hm => hseen (List.contains_iff_mem.mpr hm), h⟩)

end Diagnostic

/-! ## Deliveries -/

/-- The diagnostics among some deliveries that a receiver gets of compiling templates of a name. -/
def told (l : Listener) (name : String) (ds : List (Listener × Diagnostic)) : List Diagnostic :=
  (ds.filter fun t => t.1 = l ∧ t.2.phase = .compile ∧ t.2.template = some name).map Prod.snd

variable {l : Listener} {name : String}

theorem told_append (l : Listener) (name : String) (ds ds' : List (Listener × Diagnostic)) :
    told l name (ds ++ ds') = told l name ds ++ told l name ds' := by
  simp [told]

theorem told_of_phase {ds : List (Listener × Diagnostic)} (h : ∀ t ∈ ds, t.2.phase ≠ .compile) :
    told l name ds = [] := by
  rw [told, List.map_eq_nil_iff, List.filter_eq_nil_iff]
  exact fun t ht hp => h t ht (by simpa using And.left (And.right (of_decide_eq_true hp)))

/-- What a receiver is told of compiling one template is about that one. -/
theorem told_map {ds : List Diagnostic} {template : String}
    (h : ∀ d ∈ ds, d.phase = .compile ∧ d.template = some template) :
    told l name (ds.map fun d => (l, d)) = if name = template then ds else [] := by
  unfold told
  split
  · rename_i hname
    subst hname
    rw [List.filter_eq_self.mpr, List.map_map]
    · exact List.map_id ds
    · exact fun t ht => by
        obtain ⟨d, hd, rfl⟩ := List.mem_map.mp ht
        exact decide_eq_true ⟨rfl, h d hd⟩
  · rename_i hname
    rw [List.filter_eq_nil_iff.mpr, List.map_nil]
    intro t ht hp
    obtain ⟨d, hd, rfl⟩ := List.mem_map.mp ht
    obtain ⟨-, -, hd'⟩ := of_decide_eq_true hp
    exact hname (Option.some.inj (hd'.symm.trans (h d hd).2))

theorem mem_told {ds : List (Listener × Diagnostic)} {d : Diagnostic} (h : d ∈ told l name ds) :
    (l, d) ∈ ds ∧ d.phase = .compile ∧ d.template = some name := by
  obtain ⟨⟨r, x⟩, hf, rfl⟩ := List.mem_map.mp h
  obtain ⟨hm, hp⟩ := List.mem_filter.mp hf
  obtain ⟨hr, hp⟩ := of_decide_eq_true hp
  exact ⟨hr ▸ hm, hp⟩

/-! ## Lists of reports -/

namespace Workspace

/-- The list of reports of a slot. -/
def reportsOf (w : Workspace) (slot : Nat) : Nat := (w.slots[slot]?.map Slot.reports).getD 0

variable {w : Workspace} {slot : Nat} {seen : List String}

/-- Diagnostics of a definition are delivered if their text is new, and then seen. -/
theorem reports_run (h : w.reports[w.reportsOf slot]? = some seen) (l : Listener) (ds : List Diagnostic) :
    ds.foldl (fun w d => w.reportOnce slot l d) w =
      { w with
        reports := w.reports.setIfInBounds (w.reportsOf slot) (Diagnostic.texts seen (Diagnostic.unseen seen ds))
        delivered := w.delivered ++ ((Diagnostic.unseen seen ds).map fun d => (l, d)).toArray } := by
  have hlt : w.reportsOf slot < w.reports.size := (Array.getElem?_eq_some_iff.mp h).1
  induction ds generalizing w seen with
  | nil =>
    have hsame : w.reports.setIfInBounds (w.reportsOf slot) seen = w.reports := by
      rw [Array.setIfInBounds_def, dif_pos hlt]
      obtain ⟨_, hseen⟩ := Array.getElem?_eq_some_iff.mp h
      subst hseen
      exact Array.set_getElem_self hlt
    simp [Diagnostic.unseen, Diagnostic.texts, hsame]
  | cons d ds ih =>
    have hd : w.reportOnce slot l d = if seen.contains d.display then w
        else { w with reports := w.reports.setIfInBounds (w.reportsOf slot) (d.display :: seen) }.deliver l d := by
      unfold reportOnce
      simp only [reportsOf] at h ⊢
      rw [h]
      rfl
    rw [List.foldl_cons, hd, Diagnostic.unseen]
    split
    · exact ih h hlt
    · rw [Diagnostic.texts_cons]
      refine (ih (Array.getElem?_setIfInBounds_self_of_lt hlt) ((Array.size_setIfInBounds ..).symm ▸ hlt)).trans ?_
      simp [deliver, reportsOf]

end Workspace

/-! ## Accounts -/

/-- A definition of a name among the templates that it is compiled with. -/
def Compilation.of (d : Directory) (e : String × Definition) : Compilation := ⟨e.1, e.2.formals, e.2.source, d⟩

/-- For each slot it is known what is compiled for it. The slots of one definition share a list of reports,
in which are the texts of what was told of it. What a failed compilation found was told. -/
structure Workspace.Accounts (w : Workspace) (cases : List Compilation) (said : String → List Diagnostic) :
    Prop where
  size : w.slots.size = cases.length
  kept : ∀ slot c, cases[slot]? = some c →
    w.reports[w.reportsOf slot]? = some (Diagnostic.texts [] (said c.name))
  shared : ∀ slot slot' c c', cases[slot]? = some c → cases[slot']? = some c' →
    (w.reportsOf slot = w.reportsOf slot' ↔ c.name = c'.name)
  ready : ∀ slot c p, cases[slot]? = some c → w.outcome? slot = some (.ready p) → c.found = []
  failed : ∀ slot c retry, cases[slot]? = some c → w.outcome? slot = some (.failed retry) →
    c.found ≠ [] ∧ ∀ d ∈ c.found, d.display ∈ (said c.name).map Diagnostic.display
  once : ∀ name, ((said name).map Diagnostic.display).Nodup
  silent : ∀ name, (∀ c ∈ cases, c.name ≠ name) → said name = []

namespace Workspace.Accounts

variable {w : Workspace} {cases : List Compilation} {said : String → List Diagnostic} {slot : Nat}
  {c : Compilation} {outcome : Outcome}

theorem empty : Workspace.empty.Accounts [] fun _ => [] :=
  ⟨rfl, nofun, nofun, nofun, nofun, fun _ => List.nodup_nil, fun _ _ => rfl⟩

/-- What is delivered beside does not matter. -/
theorem of_eq {w' : Workspace} (h : w.Accounts cases said) (hs : w'.slots = w.slots) (hr : w'.reports = w.reports) :
    w'.Accounts cases said := by
  obtain ⟨slots, reports, delivered⟩ := w
  obtain ⟨slots', reports', delivered'⟩ := w'
  cases hs
  cases hr
  exact ⟨h.size, h.kept, h.shared, h.ready, h.failed, h.once, h.silent⟩

theorem reportsOf_settle (w : Workspace) (slot other : Nat) (outcome : Outcome) :
    (w.settle slot outcome).reportsOf other = w.reportsOf other := by
  unfold reportsOf settle
  rw [Array.getElem?_modify]
  split
  · rename_i hs
    subst hs
    cases w.slots[slot]? <;> rfl
  · rfl

/-- An outcome is kept that fits what compiling finds. -/
theorem settle (h : w.Accounts cases said) (hc : cases[slot]? = some c)
    (hready : ∀ p, outcome = .ready p → c.found = [])
    (hfailed : ∀ retry, outcome = .failed retry →
      c.found ≠ [] ∧ ∀ d ∈ c.found, d.display ∈ (said c.name).map Diagnostic.display) :
    (w.settle slot outcome).Accounts cases said where
  size := (Array.size_modify ..).trans h.size
  kept other c' hc' := by
    rw [reportsOf_settle]
    exact h.kept other c' hc'
  shared slot slot' c c' := by
    rw [reportsOf_settle, reportsOf_settle]
    exact h.shared slot slot' c c'
  ready other c' p hc' ho := by
    rw [outcome?_settle] at ho
    split at ho
    · rename_i hs
      obtain ⟨rfl, -⟩ := hs
      cases hc.symm.trans hc'
      exact hready p (Option.some.inj ho)
    · exact h.ready other c' p hc' ho
  failed other c' retry hc' ho := by
    rw [outcome?_settle] at ho
    split at ho
    · rename_i hs
      obtain ⟨rfl, -⟩ := hs
      cases hc.symm.trans hc'
      exact hfailed retry (Option.some.inj ho)
    · exact h.failed other c' retry hc' ho
  once := h.once
  silent := h.silent

theorem told_of_failed (h : w.Accounts cases said) (hc : cases[slot]? = some c) {retry : Bool}
    (ho : w.outcome? slot = some (.failed retry)) : ∃ d, d ∈ said c.name := by
  obtain ⟨hne, hall⟩ := h.failed slot c retry hc ho
  obtain ⟨d, hd⟩ := List.exists_mem_of_ne_nil _ hne
  obtain ⟨d', hd', -⟩ := List.mem_map.mp (hall d hd)
  exact ⟨d', hd'⟩

/-- Diagnostics of a definition are reported, of which those are told that have a new text. -/
theorem report (h : w.Accounts cases said) (hc : cases[slot]? = some c) (l : Listener) {ds : List Diagnostic}
    (hds : ∀ d ∈ ds, c.Finds d) : ∃ new, new ⊆ ds ∧
      (ds.foldl (fun w d => w.reportOnce slot l d) w).delivered.toList =
        w.delivered.toList ++ new.map (fun d => (l, d)) ∧
      (ds.foldl (fun w d => w.reportOnce slot l d) w).Accounts cases
        (fun name => said name ++ told l name (new.map fun d => (l, d))) ∧
      ∀ d ∈ ds, d.display ∈
        (said c.name ++ told l c.name (new.map fun d => (l, d))).map Diagnostic.display := by
  have hrun := reports_run (h.kept slot c hc) l ds
  generalize hnew : Diagnostic.unseen (Diagnostic.texts [] (said c.name)) ds = new at hrun
  have hsub : new ⊆ ds := hnew ▸ Diagnostic.unseen_subset _ _
  have htexts : Diagnostic.texts (Diagnostic.texts [] (said c.name)) new =
      Diagnostic.texts [] (said c.name ++ new) := (Diagnostic.texts_append [] _ _).symm
  have htold (name : String) : told l name (new.map fun d => (l, d)) = if name = c.name then new else [] :=
    told_map fun d hd => ⟨(hds d (hsub hd)).phase, (hds d (hsub hd)).template⟩
  have hsaid : said c.name ++ told l c.name (new.map fun d => (l, d)) = said c.name ++ new := by
    rw [htold, if_pos rfl]
  have hother {name : String} (hne : name ≠ c.name) :
      said name ++ told l name (new.map fun d => (l, d)) = said name := by
    rw [htold, if_neg hne, List.append_nil]
  refine ⟨new, hsub, by rw [hrun]; simp, ?_, fun d hd => ?_⟩
  · rw [hrun]
    exact {
      size := h.size
      kept := fun other c' hc' => by
        have hkey := h.shared slot other c c' hc hc'
        change (w.reports.setIfInBounds (w.reportsOf slot) _)[w.reportsOf other]? = _
        by_cases hn : c'.name = c.name
        · rw [hn, hsaid, ← htexts, hkey.mpr hn.symm, Array.getElem?_setIfInBounds_self_of_lt]
          exact (Array.getElem?_eq_some_iff.mp (h.kept other c' hc')).1
        · rw [hother hn, Array.getElem?_setIfInBounds_ne fun he => hn (hkey.mp he).symm]
          exact h.kept other c' hc'
      shared := h.shared
      ready := h.ready
      failed := fun other c' retry hc' ho => by
        obtain ⟨hne, htold⟩ := h.failed other c' retry hc' ho
        refine ⟨hne, fun d hd => ?_⟩
        rw [List.map_append]
        exact List.mem_append_left _ (htold d hd)
      once := fun name => by
        by_cases hn : name = c.name
        · subst hn
          rw [hsaid, ← Diagnostic.nodup_texts_iff, ← htexts, ← hnew]
          exact Diagnostic.nodup_unseen (Diagnostic.nodup_texts_iff.mpr (h.once _)) ds
        · rw [hother hn]
          exact h.once name
      silent := fun name hs => by
        rw [hother fun hn => hs c (List.mem_of_getElem? hc) hn.symm]
        exact h.silent name hs }
  · rw [hsaid, ← Diagnostic.mem_texts, ← htexts, ← hnew]
    exact Diagnostic.display_mem_unseen hd

end Workspace.Accounts

/-! ## Compiling -/

/-- Among two workspaces, a group compiled its definition of a name, and that found something. -/
def Group.Found (g : Group) (w w' : Workspace) (name : String) (d : Diagnostic) : Prop :=
  ∃ definition, (name, definition) ∈ g.templates ∧ w.outcome? definition.slot = none ∧
    (∃ retry, w'.outcome? definition.slot = some (.failed retry)) ∧
    d ∈ (Compilation.of g.directory (name, definition)).found

/-- The definitions of a group are accounted for. Those that were not compiled will be with the templates
of the group. -/
structure Group.Accounted (cases : List Compilation) (w : Workspace) (l : Listener) (g : Group) : Prop where
  listener : g.listener = l
  noted : ∀ e ∈ g.templates, ∃ d, cases[e.2.slot]? = some (.of d e) ∧
    (w.outcome? e.2.slot = none → d = g.directory)

/-- What compiling definitions of groups of a kind makes of a workspace. Exactly what is found then is told,
but for texts that were told before. -/
structure Workspace.Advance (cases : List Compilation) (said : String → List Diagnostic) (l : Listener)
    (G : Group → Prop) (w₀ w : Workspace) (more : List (Listener × Diagnostic)) : Prop where
  delivered : w.delivered.toList = w₀.delivered.toList ++ more
  accounts : w.Accounts cases fun name => said name ++ told l name more
  lasting : ∀ slot o, w₀.outcome? slot = some o → w.outcome? slot = some o
  found : ∀ name, ∀ d ∈ told l name more, ∃ g, G g ∧ g.Found w₀ w name d

theorem Group.compiled_open (g : Group) {e : String × Definition} {w : Workspace} (h : w.outcome? e.2.slot = none) :
    (g.compiled e.1 e.2).run w =
      match Program.compile g.directory e.1 e.2.formals e.2.source with
      | .ok p => (some p, w.settle e.2.slot (.ready p))
      | .error x => (none, (x.diagnostics.foldl (fun w d => w.reportOnce e.2.slot g.listener d) w).settle
          e.2.slot (.failed x.isMendable)) := by
  unfold compiled
  simp only [StateT.run_bind, StateT.run_get, pure_bind, h]
  cases Program.compile g.directory e.1 e.2.formals e.2.source <;> rfl

namespace Workspace.Advance

variable {w₀ w : Workspace} {cases : List Compilation} {said : String → List Diagnostic} {l : Listener}
  {G : Group → Prop} {more : List (Listener × Diagnostic)} {g : Group} {e : String × Definition}

theorem refl (h : w₀.Accounts cases said) : w₀.Advance cases said l G w₀ [] where
  delivered := (List.append_nil _).symm
  accounts := by simpa [told] using h
  lasting _ _ := id
  found _ := List.forall_mem_nil _

theorem outcome?_none (h : w₀.Advance cases said l G w more) {slot : Nat} (ho : w.outcome? slot = none) :
    w₀.outcome? slot = none := by
  cases hs : w₀.outcome? slot with
  | none => rfl
  | some o => cases (h.lasting slot o hs).symm.trans ho

/-- What is delivered beside, and not of compiling, does not matter. -/
theorem deliver (h : w₀.Advance cases said l G w more) (r : Listener) {d : Diagnostic} (hd : d.phase = .render) :
    w₀.Advance cases said l G (w.deliver r d) (more ++ [(r, d)]) := by
  have hnone (name : String) : told l name (more ++ [(r, d)]) = told l name more := by
    have hphase : ∀ t ∈ [(r, d)], t.2.phase ≠ .compile := List.forall_mem_singleton.mpr (hd ▸ Phase.noConfusion)
    rw [told_append, told_of_phase hphase, List.append_nil]
  refine ⟨?_, ?_, h.lasting, fun name d hd => ?_⟩
  · rw [Workspace.deliver, Array.toList_push, h.delivered, List.append_assoc]
  · simp only [hnone]
    exact h.accounts.of_eq rfl rfl
  · rw [hnone] at hd
    exact h.found name d hd

/-- An outcome is kept, of which is told what was found. -/
theorem settle (h : w₀.Advance cases said l G w more) {v : Workspace} (hv : v.slots = w.slots)
    {new : List (Listener × Diagnostic)} (hd : v.delivered.toList = w.delivered.toList ++ new)
    {outcome : Outcome} {slot : Nat} (hnone : w.outcome? slot = none)
    (ha : (v.settle slot outcome).Accounts cases fun name => said name ++ told l name (more ++ new))
    (hf : ∀ name, ∀ d ∈ told l name new, ∃ g, G g ∧ g.Found w₀ (v.settle slot outcome) name d) :
    w₀.Advance cases said l G (v.settle slot outcome) (more ++ new) := by
  have hkeep {other : Nat} {o : Outcome} (ho : w.outcome? other = some o) :
      (v.settle slot outcome).outcome? other = some o := by
    rw [outcome?_settle, if_neg, outcome?, hv]
    · exact ho
    · rintro ⟨rfl, -⟩
      cases hnone.symm.trans ho
  refine ⟨?_, ha, fun other o ho => hkeep (h.lasting other o ho), fun name d hd => ?_⟩
  · rw [← List.append_assoc, ← h.delivered]
    exact hd
  · rw [told_append] at hd
    rcases List.mem_append.mp hd with hd | hd
    · obtain ⟨g, hg, definition, he, ho, ⟨retry, hr⟩, hd⟩ := h.found name d hd
      exact ⟨g, hg, definition, he, ho, ⟨retry, hkeep hr⟩, hd⟩
    · exact hf name d hd

/-- Compiling a definition of a group of the kind, which fails if something is found. -/
theorem compiled (h : w₀.Advance cases said l G w more) (hg : G g) (ha : g.Accounted cases w₀ l)
    (he : e ∈ g.templates) : ∃ o w' new, (g.compiled e.1 e.2).run w = (o, w') ∧
      w₀.Advance cases said l G w' (more ++ new) ∧
      (∀ t ∈ new, ∃ d ∈ (Compilation.of g.directory e).found, t = (l, d)) ∧
      (o = none → ∃ d, d ∈ said e.1 ++ told l e.1 (more ++ new)) ∧
      (w₀.outcome? e.2.slot = none → (o = none ↔ (Compilation.of g.directory e).found ≠ [])) := by
  obtain ⟨d, hc, hopen⟩ := ha.noted e he
  cases ho : w.outcome? e.2.slot with
  | some o =>
    refine ⟨o.program?, w, [], g.compiled_kept e.1 ho, (List.append_nil more).symm ▸ h, List.forall_mem_nil _,
      fun hn => ?_, fun hs => ?_⟩
    · cases o with
      | ready p => cases hn
      | failed retry =>
        rw [List.append_nil]
        exact h.accounts.told_of_failed hc ho
    · cases hopen hs
      cases o with
      | ready p => simp [Outcome.program?, h.accounts.ready _ _ p hc ho]
      | failed retry => simp [Outcome.program?, (h.accounts.failed _ _ retry hc ho).1]
  | none =>
    have hstart := h.outcome?_none ho
    cases hopen hstart
    have hslot : e.2.slot < w.slots.size := h.accounts.size ▸ (List.getElem?_eq_some_iff.mp hc).1
    have hsettled {v : Workspace} (hv : v.slots = w.slots) (outcome : Outcome) :
        (v.settle e.2.slot outcome).outcome? e.2.slot = some outcome := by
      rw [outcome?_settle, if_pos ⟨rfl, hv ▸ hslot⟩]
    rw [g.compiled_open ho]
    cases hcompile : Program.compile g.directory e.1 e.2.formals e.2.source with
    | ok p =>
      have hnil : (Compilation.of g.directory e).found = [] := Compilation.found_of_ok hcompile
      refine ⟨_, _, [], rfl, ?_, List.forall_mem_nil _, nofun, fun _ => by simp [hnil]⟩
      refine h.settle rfl (List.append_nil _).symm ho ?_ fun _ => List.forall_mem_nil _
      rw [List.append_nil]
      exact h.accounts.settle hc (fun _ _ => hnil) nofun
    | error x =>
      have hfound : (Compilation.of g.directory e).found = x.diagnostics := Compilation.found_of_error hcompile
      have hne : (Compilation.of g.directory e).found ≠ [] := Compilation.found_ne_nil hcompile
      have hfinds : ∀ d ∈ x.diagnostics, (Compilation.of g.directory e).Finds d :=
        fun d hd => Compilation.finds_of_mem (hfound ▸ hd)
      obtain ⟨new, hsub, hdelivered, haccounts, htold⟩ := h.accounts.report hc l hfinds
      have hv := w.slots_reports e.2.slot l x.diagnostics
      cases ha.listener
      dsimp only
      generalize x.diagnostics.foldl (fun w d => w.reportOnce e.2.slot g.listener d) w = v at *
      have hnext : w₀.Advance cases said g.listener G (v.settle e.2.slot (.failed x.isMendable))
          (more ++ new.map fun d => (g.listener, d)) := by
        refine h.settle hv hdelivered ho ?_ fun name d hd => ?_
        · simp only [told_append, ← List.append_assoc]
          exact haccounts.settle hc nofun fun _ _ => ⟨hne, fun d hd => htold d (hfound ▸ hd)⟩
        · obtain ⟨hm, hp, ht⟩ := mem_told hd
          obtain ⟨d', hd', heq⟩ := List.mem_map.mp hm
          cases heq
          have hd' := hsub hd'
          cases Option.some.inj ((hfinds d hd').template.symm.trans ht)
          exact ⟨g, hg, e.2, he, hstart, ⟨_, hsettled hv _⟩, hfound ▸ hd'⟩
      refine ⟨_, _, _, rfl, hnext, fun t ht => ?_, fun _ => hnext.accounts.told_of_failed hc (hsettled hv _),
        fun _ => by simp [hne]⟩
      obtain ⟨d, hd, rfl⟩ := List.mem_map.mp ht
      exact ⟨d, hfound ▸ hsub hd, rfl⟩

/-- Compiling some definitions of a group, of which those fail in which something is found. -/
theorem compileEach (hg : G g) (ha : g.Accounted cases w₀ l) : {w : Workspace} →
    {more : List (Listener × Diagnostic)} → w₀.Advance cases said l G w more →
    (es : List (String × Definition)) → es ⊆ g.templates → ∃ failed w' new, (g.compileEach es).run w = (failed, w') ∧
      w₀.Advance cases said l G w' (more ++ new) ∧
      (∀ t ∈ new, ∃ e ∈ es, ∃ d ∈ (Compilation.of g.directory e).found, t = (l, d)) ∧
      (∀ name ∈ failed, ∃ d, d ∈ said name ++ told l name (more ++ new)) ∧
      ((∀ e ∈ es, w₀.outcome? e.2.slot = none) →
        failed = (es.filter fun e => (Compilation.of g.directory e).found ≠ []).map Prod.fst)
  | w, more, h, [], _ =>
      ⟨[], w, [], rfl, (List.append_nil more).symm ▸ h, List.forall_mem_nil _, List.forall_mem_nil _, fun _ => rfl⟩
  | w, more, h, (name, d) :: rest, he => by
      obtain ⟨hd, hrest⟩ := List.cons_subset.mp he
      obtain ⟨o, w₁, new₁, hrun₁, h₁, hnew₁, hnone, hfound⟩ := h.compiled hg ha hd
      obtain ⟨failed, w₂, new₂, hrun₂, h₂, hnew₂, hfailed, hall⟩ := compileEach hg ha h₁ rest hrest
      rw [List.append_assoc] at h₂ hfailed
      rw [Group.compileEach_cons, hrun₁, hrun₂]
      refine ⟨_, w₂, _, rfl, h₂, fun t ht => ?_, fun other ho => ?_, fun hopen => ?_⟩
      · rcases List.mem_append.mp ht with ht | ht
        · exact ⟨_, List.mem_cons_self, hnew₁ t ht⟩
        · obtain ⟨e, he, hd⟩ := hnew₂ t ht
          exact ⟨e, List.mem_cons_of_mem _ he, hd⟩
      · have hhere (hn : o = none) : ∃ d, d ∈ said name ++ told l name (more ++ (new₁ ++ new₂)) := by
          obtain ⟨d, hd⟩ := hnone hn
          refine ⟨d, ?_⟩
          rw [← List.append_assoc, told_append, ← List.append_assoc]
          exact List.mem_append_left _ hd
        split at ho
        · rename_i hn
          rcases List.mem_cons.mp ho with rfl | ho
          · exact hhere (Option.isNone_iff_eq_none.mp hn)
          · exact hfailed other ho
        · exact hfailed other ho
      · obtain ⟨hd, hrest⟩ := List.forall_mem_cons.mp hopen
        rw [hall hrest, List.filter_cons]
        by_cases hn : o = none
        · rw [if_pos (Option.isNone_iff_eq_none.mpr hn), if_pos (decide_eq_true ((hfound hd).mp hn)), List.map_cons]
        · rw [if_neg fun h => hn (Option.isNone_iff_eq_none.mp h),
            if_neg fun h => hn ((hfound hd).mpr (of_decide_eq_true h))]

theorem resolveFound (h : w₀.Advance cases said l G w more) (name : String) (found : Option (Group × Definition))
    (hf : ∀ native d, found = some (native, d) →
      G native ∧ native.Accounted cases w₀ l ∧ (name, d) ∈ native.templates) :
    ∃ r w' new, (Group.resolveFound name found).run w = (r, w') ∧ w₀.Advance cases said l G w' (more ++ new) ∧
      (∀ native p, r = .ok (native, p) → ∃ d, found = some (native, d)) ∧
      (r = .error .compileFailed → ∃ d, d ∈ said name ++ told l name (more ++ new)) := by
  cases found with
  | none => exact ⟨_, w, [], rfl, (List.append_nil more).symm ▸ h, nofun, nofun⟩
  | some f =>
    obtain ⟨native, d⟩ := f
    obtain ⟨hg, ha, he⟩ := hf native d rfl
    obtain ⟨o, w', new, hrun, h', -, hnone, -⟩ := h.compiled hg ha he
    refine ⟨_, w', new, Group.resolveFound_run hrun, h', fun group p hr => ?_, fun hr => ?_⟩
    · cases o with
      | none => cases hr
      | some q =>
        cases hr
        exact ⟨d, rfl⟩
    · cases o with
      | none => exact hnone rfl
      | some p => cases hr

end Workspace.Advance

/-! ## Defining -/

theorem Group.not_mem_keys {g : Group} {name : String} {formals : Formals} (h : g.refusal? name formals = none) :
    name ∉ Dict.keys g.templates := by
  intro hm
  rw [refusal?, Dict.contains_iff.mpr hm] at h
  split at h <;> cases h

theorem Group.keys_renewEach (w : Workspace) (es : List (String × Definition)) :
    Dict.keys ((renewEach es).run w).1 = Dict.keys es := by
  have hkeys := congrArg Dict.keys (renewEach_unslotted w es)
  rwa [Dict.keys_mapValues, Dict.keys_mapValues] at hkeys

/-- What is accounted for stays so, as long as the same was compiled. -/
theorem Group.Accounted.mono {cases : List Compilation} {w w' : Workspace} {l : Listener} {g : Group}
    (h : g.Accounted cases w l) (more : List Compilation)
    (ho : ∀ slot o, w.outcome? slot = some o → w'.outcome? slot = some o) :
    g.Accounted (cases ++ more) w' l where
  listener := h.listener
  noted e he := by
    obtain ⟨d, hc, hopen⟩ := h.noted e he
    refine ⟨d, ?_, fun hn => hopen ?_⟩
    · rw [List.getElem?_append_left (List.getElem?_eq_some_iff.mp hc).1]
      exact hc
    · cases hs : w.outcome? e.2.slot with
      | none => rfl
      | some o => cases (ho _ o hs).symm.trans hn

theorem Group.Accounted.lasting {cases : List Compilation} {w w' : Workspace} {l : Listener} {g : Group}
    (h : g.Accounted cases w l) (ho : ∀ slot o, w.outcome? slot = some o → w'.outcome? slot = some o) :
    g.Accounted cases w' l := List.append_nil cases ▸ h.mono [] ho

namespace Workspace.Accounts

variable {w : Workspace} {cases : List Compilation} {said : String → List Diagnostic} {l : Listener} {g : Group}

theorem outcome?_push (w : Workspace) (key : Nat) (texts : Array (List String)) (slot : Nat) :
    Workspace.outcome? { w with slots := w.slots.push ⟨none, key⟩, reports := texts } slot = w.outcome? slot := by
  simp only [outcome?, Array.getElem?_push]
  split
  · rename_i hs
    rw [hs, Array.getElem?_eq_none (Nat.le_refl _)]
    rfl
  · rfl

/-- A new slot, whose list of reports is that of the definition if it has one. -/
theorem push (h : w.Accounts cases said) {c : Compilation} {key : Nat} {texts : Array (List String)}
    (hkeep : ∀ (i : Nat) t, w.reports[i]? = some t → texts[i]? = some t)
    (hkey : texts[key]? = some (Diagnostic.texts [] (said c.name)))
    (hshared : ∀ slot c', cases[slot]? = some c' → (w.reportsOf slot = key ↔ c'.name = c.name)) :
    Workspace.Accounts { w with slots := w.slots.push ⟨none, key⟩, reports := texts } (cases ++ [c]) said := by
  have hnew :
      Workspace.reportsOf { w with slots := w.slots.push ⟨none, key⟩, reports := texts } cases.length = key := by
    simp [reportsOf, ← h.size]
  have hold {slot : Nat} (hs : slot < cases.length) :
      Workspace.reportsOf { w with slots := w.slots.push ⟨none, key⟩, reports := texts } slot = w.reportsOf slot := by
    simp [reportsOf, Array.getElem?_push, h.size, Nat.ne_of_lt hs]
  have hcases {slot : Nat} {c' : Compilation} (hc : (cases ++ [c])[slot]? = some c') :
      slot < cases.length ∧ cases[slot]? = some c' ∨ slot = cases.length ∧ c' = c := by
    rcases Nat.lt_or_ge slot cases.length with hs | hs
    · exact .inl ⟨hs, (List.getElem?_append_left hs).symm.trans hc⟩
    · rw [List.getElem?_append_right hs, List.getElem?_singleton] at hc
      split at hc
      · exact .inr ⟨by omega, (Option.some.inj hc).symm⟩
      · cases hc
  have hopen (o : Outcome) : w.outcome? cases.length ≠ some o := by
    rw [outcome?, ← h.size, Array.getElem?_eq_none (Nat.le_refl _)]
    intro ho
    cases ho
  exact {
    size := by simp [h.size]
    kept := fun slot c' hc => by
      rcases hcases hc with ⟨hs, hc⟩ | ⟨rfl, rfl⟩
      · rw [hold hs]
        exact hkeep _ _ (h.kept slot c' hc)
      · rw [hnew]
        exact hkey
    shared := fun slot slot' c₁ c₂ hc₁ hc₂ => by
      rcases hcases hc₁ with ⟨hs, hold₁⟩ | ⟨rfl, rfl⟩ <;> rcases hcases hc₂ with ⟨hs', hold₂⟩ | ⟨rfl, rfl⟩
      · rw [hold hs, hold hs']
        exact h.shared slot slot' c₁ c₂ hold₁ hold₂
      · rw [hold hs, hnew]
        exact hshared slot c₁ hold₁
      · rw [hold hs', hnew, eq_comm, hshared slot' c₂ hold₂]
        exact eq_comm
      · exact ⟨fun _ => rfl, fun _ => rfl⟩
    ready := fun slot c' p hc ho => by
      rw [outcome?_push] at ho
      rcases hcases hc with ⟨-, hc⟩ | ⟨rfl, -⟩
      · exact h.ready slot c' p hc ho
      · exact absurd ho (hopen _)
    failed := fun slot c' retry hc ho => by
      rw [outcome?_push] at ho
      rcases hcases hc with ⟨-, hc⟩ | ⟨rfl, -⟩
      · exact h.failed slot c' retry hc ho
      · exact absurd ho (hopen _)
    once := h.once
    silent := fun name hn => h.silent name fun c' hc => hn c' (List.mem_append_left _ hc) }

/-- Definitions that are renewed are compiled with other templates, and keep their lists of reports. -/
theorem renewEach (d' : Directory) : {w : Workspace} → {cases : List Compilation} → w.Accounts cases said →
    (es : List (String × Definition)) → (∀ e ∈ es, ∃ d, cases[e.2.slot]? = some (.of d e)) → ∃ more,
      ((Group.renewEach es).run w).2.Accounts (cases ++ more) said ∧
      ((Group.renewEach es).run w).2.delivered = w.delivered ∧
      (∀ slot, ((Group.renewEach es).run w).2.outcome? slot = w.outcome? slot) ∧
      (∀ c ∈ more, c.name ∈ Dict.keys es) ∧
      ∀ e ∈ ((Group.renewEach es).run w).1, ∃ d, (cases ++ more)[e.2.slot]? = some (.of d e) ∧
        (w.outcome? e.2.slot = none → d = d')
  | w, cases, h, [], _ => ⟨[], (List.append_nil cases).symm ▸ h, rfl, fun _ => rfl, nofun, nofun⟩
  | w, cases, h, (name, e) :: rest, hes => by
      obtain ⟨⟨d, hc⟩, hrest⟩ := List.forall_mem_cons.mp hes
      rw [Group.renewEach_cons, Workspace.renew]
      cases hs : w.isStale e.slot with
      | true =>
        rw [if_pos rfl]
        dsimp only
        have hkept : w.reports[w.reportsOf e.slot]? = some (Diagnostic.texts [] (said name)) := h.kept _ _ hc
        have hshared (slot : Nat) (c' : Compilation) (hc' : cases[slot]? = some c') :
            w.reportsOf slot = w.reportsOf e.slot ↔ c'.name = name := h.shared _ _ _ _ hc' hc
        have hpush := h.push (c := .of d' (name, e)) (fun _ _ => id) hkept hshared
        obtain ⟨more, hw, hdelivered, ho, hnames, hnoted⟩ := renewEach d' hpush rest fun e' he' => by
          obtain ⟨d, hc⟩ := hrest e' he'
          exact ⟨d, (List.getElem?_append_left (List.getElem?_eq_some_iff.mp hc).1).trans hc⟩
        rw [List.append_assoc] at hw hnoted
        refine ⟨Compilation.of d' (name, e) :: more, hw, hdelivered, fun slot => (ho slot).trans (outcome?_push ..),
          fun c hc => ?_, List.forall_mem_cons.mpr ⟨⟨d', ?_, fun _ => rfl⟩, fun e' he' => ?_⟩⟩
        · rcases List.mem_cons.mp hc with rfl | hc
          · exact List.mem_cons_self
          · exact List.mem_cons_of_mem _ (hnames c hc)
        · rw [h.size, List.getElem?_append_right (Nat.le_refl _), Nat.sub_self]
          rfl
        · obtain ⟨d, hc, hopen⟩ := hnoted e' he'
          exact ⟨d, hc, fun hn => hopen ((outcome?_push ..).trans hn)⟩
      | false =>
        rw [if_neg Bool.false_ne_true]
        obtain ⟨more, hw, hdelivered, ho, hnames, hnoted⟩ := renewEach d' h rest hrest
        refine ⟨more, hw, hdelivered, ho, fun c hc => List.mem_cons_of_mem _ (hnames c hc),
          List.forall_mem_cons.mpr ⟨⟨d, ?_, fun hn => ?_⟩, hnoted⟩⟩
        · exact (List.getElem?_append_left (List.getElem?_eq_some_iff.mp hc).1).trans hc
        · -- what keeps its slot failed for good
          unfold Workspace.isStale at hs
          rw [hn] at hs
          cases hs

/-- A definition of a new name, which gets a list of reports. -/
theorem define (h : w.Accounts cases said) (hg : g.Accounted cases w l)
    (hnames : ∀ c ∈ cases, c.name ∈ Dict.keys g.templates) {name : String} (hnew : name ∉ Dict.keys g.templates)
    (formals : Formals) (source : String) {es : List (String × Definition)} {w' : Workspace}
    (hrun : (Group.renewEach g.templates).run w = (es, w')) : ∃ more,
      w'.allocate.2.Accounts (cases ++ more) said ∧ w'.allocate.2.delivered = w.delivered ∧
      (∀ slot, w'.allocate.2.outcome? slot = w.outcome? slot) ∧
      (g.defining name formals source w'.slots.size es).Accounted (cases ++ more) w'.allocate.2 l ∧
      ∀ c ∈ cases ++ more, c.name ∈ Dict.keys (g.defining name formals source w'.slots.size es).templates := by
  generalize hd : (g.defining name formals source w'.slots.size es).directory = d
  obtain ⟨more, hw, hdelivered, ho, hmore, hnoted⟩ := h.renewEach d g.templates fun e he =>
    (hg.noted e he).imp fun _ => And.left
  have hkeys := Group.keys_renewEach w g.templates
  rw [hrun] at hw hdelivered ho hnoted hkeys
  have hall : ∀ c ∈ cases ++ more, c.name ∈ Dict.keys g.templates :=
    List.forall_mem_append.mpr ⟨hnames, hmore⟩
  have hnone : ∀ c ∈ cases ++ more, c.name ≠ name := fun c hc he => hnew (he ▸ hall c hc)
  have hsome {i : Nat} {t : List String} (ht : w'.reports[i]? = some t) : i < w'.reports.size :=
    (Array.getElem?_eq_some_iff.mp ht).1
  refine ⟨more ++ [.of d (name, ⟨formals, source, w'.slots.size⟩)], ?_, hdelivered, fun slot => ?_,
    ⟨hg.listener, fun e he => ?_⟩, fun c hc => ?_⟩
  · rw [← List.append_assoc]
    refine hw.push (fun i t ht => ?_) ?_ fun slot c hc => ⟨fun hkey => ?_, fun he => ?_⟩
    · rw [Array.getElem?_push, if_neg (Nat.ne_of_lt (hsome ht)), ht]
    · rw [Array.getElem?_push, if_pos rfl]
      exact congrArg (fun ds => some (Diagnostic.texts [] ds))
        (h.silent name fun c hc => hnone c (List.mem_append_left _ hc)).symm
    · exact absurd hkey (Nat.ne_of_lt (hsome (hw.kept slot c hc)))
    · exact absurd he (hnone c (List.mem_of_getElem? hc))
  · exact (outcome?_push ..).trans (ho slot)
  · rcases Dict.mem_of_mem_insert he with rfl | he
    · refine ⟨d, ?_, fun _ => hd.symm⟩
      rw [← List.append_assoc, show w'.slots.size = (cases ++ more).length from hw.size,
        List.getElem?_append_right (Nat.le_refl _), Nat.sub_self]
      rfl
    · obtain ⟨d', hc, hopen⟩ := hnoted e he
      refine ⟨d', ?_, fun hn => (hopen ?_).trans hd.symm⟩
      · rw [← List.append_assoc, List.getElem?_append_left (List.getElem?_eq_some_iff.mp hc).1]
        exact hc
      · rw [← ho]
        exact (outcome?_push ..).symm.trans hn
  · rw [Group.defining, Dict.mem_keys_insert, hkeys]
    rw [← List.append_assoc] at hc
    rcases List.mem_append.mp hc with hc | hc
    · exact .inr (hall c hc)
    · rw [List.mem_singleton.mp hc]
      exact .inl rfl

end Workspace.Accounts

end Stencil
