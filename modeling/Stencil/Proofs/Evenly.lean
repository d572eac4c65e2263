import Mathlib.Data.List.Nodup
import Stencil.Proofs.Binding
import Stencil.Proofs.Editions
/-! What templates do with values in two versions of their groups. They read and write alike values evenly. What a call
passes in order comes to the same as what it passes by the names of parameters, in any order. -/

namespace Stencil

open Rendering

/-! ## What is bound -/

theorem Instance.Alike.bindAll {I : Instance → Instance → Prop} {i i' : Instance} (h : i.Alike I i')
    {es es' : List (String × Value)} (he : Entries.Alike I es es') : (i.bindAll es).Alike I (i'.bindAll es') := by
  induction es generalizing i i' es' with
  | nil =>
    cases he
    exact h
  | cons e es ih =>
    cases he with
    | cons name hv hes => exact ih (h.bind name hv) hes

theorem Entries.Alike.zip {I : Instance → Instance → Prop} (names : List String) {vs vs' : List Value}
    (h : Items.Alike I vs vs') : Entries.Alike I (names.zip vs) (names.zip vs') := by
  induction names generalizing vs vs' with
  | nil => exact .nil
  | cons name names ih =>
    cases h with
    | nil => exact .nil
    | cons hv hvs => exact .cons name hv (ih hvs)

namespace Dict

variable {α : Type} {key other : String}

theorem insert_of_lt (h : key < other) (a b : α) (d : Dict α) :
    insert key a ((other, b) :: d) = (key, a) :: (other, b) :: d := if_pos h

theorem insert_of_gt (h : other < key) (a b : α) (d : Dict α) :
    insert key a ((other, b) :: d) = (other, b) :: insert key a d := by
  rw [insert, if_neg (String.lt_asymm h), if_neg]
  rintro rfl
  exact String.lt_irrefl _ h

theorem insert_of_eq (a b : α) (d : Dict α) : insert key a ((key, b) :: d) = (key, a) :: d := by
  rw [insert, if_neg (String.lt_irrefl _), if_pos rfl]

theorem insert_comm_of_lt (h : key < other) (a b : α) (d : Dict α) :
    insert key a (insert other b d) = insert other b (insert key a d) := by
  induction d with
  | nil => exact (insert_of_lt h a b []).trans (insert_of_gt h b a []).symm
  | cons e d ih =>
    obtain ⟨k, v⟩ := e
    rcases Std.lt_trichotomy key k with hk | rfl | hk
    · rw [insert_of_lt hk, insert_of_gt h]
      rcases Std.lt_trichotomy other k with ho | rfl | ho
      · rw [insert_of_lt ho, insert_of_lt h]
      · rw [insert_of_eq, insert_of_lt h]
      · rw [insert_of_gt ho, insert_of_lt hk]
    · rw [insert_of_gt h, insert_of_eq, insert_of_eq, insert_of_gt h]
    · have ho := String.lt_trans hk h
      rw [insert_of_gt ho, insert_of_gt hk, insert_of_gt hk, insert_of_gt ho, ih]

/-- The order in which values of different keys are put in does not matter. -/
theorem insert_comm (h : key ≠ other) (a b : α) (d : Dict α) :
    insert key a (insert other b d) = insert other b (insert key a d) := by
  rcases Std.lt_trichotomy key other with hlt | rfl | hlt
  · exact insert_comm_of_lt hlt a b d
  · exact absurd rfl h
  · exact (insert_comm_of_lt hlt b a d).symm

end Dict

/-- The order in which values are bound to different names does not matter. -/
theorem Instance.bindAll_perm (i : Instance) {es es' : List (String × Value)} (h : es.Perm es')
    (hn : (es.map Prod.fst).Nodup) : i.bindAll es = i.bindAll es' := by
  refine h.foldl_eq' (fun e he e' he' i => ?_) i
  by_cases hname : e'.1 = e.1
  · rw [List.inj_on_of_nodup_map hn he' he hname]
  · rw [Instance.bind, Instance.bind, Instance.bind, Instance.bind, Dict.insert_comm hname]

/-- What two calls pass, by the names of parameters in the one as in the other, or in order in the one and by the first
names of some in the other. -/
inductive Passed.Alike (I : Instance → Instance → Prop) (names : Option (List String)) : Passed → Passed → Prop where
  | positional {vs vs'} (values : Items.Alike I vs vs') : Passed.Alike I names (.positional vs) (.positional vs')
  | named {es es'} (values : Entries.Alike I es es') : Passed.Alike I names (.named es) (.named es')
  | byName {ns vs vs' es} (some : names = some ns) (fit : vs.length ≤ ns.length) (values : Items.Alike I vs vs')
      (perm : es.Perm (ns.zip vs')) : Passed.Alike I names (.positional vs) (.named es)

section

variable {settings : Settings} {env : Env} {template : String} {bound : Instance}

theorem bindNamed_accepted {es : List (String × Value)} (h : ∀ e ∈ es, bound.program.formals.accepts e.1 = true) :
    bindNamed settings env template bound es = pure (bound.bindAll es) := by
  induction es generalizing bound with
  | nil => rfl
  | cons e es ih =>
    obtain ⟨he, hes⟩ := List.forall_mem_cons.mp h
    rw [bindNamed, if_pos he, ih (by exact hes)]
    rfl

theorem bindArguments_fitting {values : List Value} (h : values.length ≤ bound.program.formals.size) :
    bindArguments settings env template bound (.positional values) =
      pure (bound.bindAll ((bound.program.formals.parameters.map Parameter.name).zip values)) := by
  rw [bindArguments]
  dsimp only
  have hfit : ¬ values.length > bound.program.formals.parameters.length := Nat.not_lt.mpr h
  rw [if_neg hfit, Instance.bindAll, List.zip_map_left, List.foldl_map]
  rfl

end

namespace Edition.Stage

variable {E : Edition} (T : E.Stage)

/-! ## Values -/

theorem isPassed_eq (name : String) : isPassed T.env name = isPassed T.env' name := by
  cases T.here with
  | mk _ ha =>
    have hl := ha.lookup name
    unfold isPassed Dict.contains Dict.find?
    generalize T.env.here.bound.attributes.lookup name = o, T.env'.here.bound.attributes.lookup name = o' at hl
    cases hl <;> rfl

variable {v v' key key' : Value}

theorem renderEarly (h : v.Alike T.Bare v') : T.Even Eq (Rendering.renderEarly E.settings T.env v)
    (Rendering.renderEarly E.settings' T.env' v') := by
  obtain ⟨_, _, texts, ht, hx, hy⟩ := T.bonds.renderText h
  exact ⟨_, _, texts, ht, hx.renderEarly, hy.renderEarly⟩

theorem writeExpression (options : WriteOptions) (h : v.Alike T.Bare v') :
    T.Even (fun _ _ => True) (Rendering.writeExpression E.settings T.env options v)
      (Rendering.writeExpression E.settings' T.env' options v') := by
  obtain ⟨_, _, texts, -, hx, hy⟩ := T.bonds.writeValue options h
  exact ⟨(), (), texts, trivial, hx.writeExpression, hy.writeExpression⟩

theorem readProperty (h : v.Alike T.Bare v') (name : String) :
    T.Even (Value.Alike T.Bare) (Rendering.readProperty E.settings T.env v name)
      (Rendering.readProperty E.settings' T.env' v' name) := by
  have hmissing (kind kind' : Kind) (arguments arguments' : List String) := T.relating.bind
    (T.report kind kind' arguments arguments' [] []) fun _ _ _ => T.relating.pure (Q := Value.Alike T.Bare) .null
  cases ht : v.template? with
  | none =>
    have hp := h.property_other ht name
    unfold Rendering.readProperty
    generalize v.property name = r, v'.property name = r' at hp
    cases hp with
    | ok hv => exact T.relating.pure hv
    | error e => exact hmissing _ _ _ _
  | some i =>
    cases h with
    | @template i i' hi =>
      rw [Rendering.readProperty, Rendering.readProperty, Value.property, Value.property,
        (Version.of_alike hi).program.formals.accepts name]
      by_cases ha : i'.program.formals.accepts name = true
      · rw [if_pos ha, if_pos ha]
        exact T.relating.pure (hi.get name)
      · rw [if_neg ha, if_neg ha]
        exact hmissing _ _ _ _
    | _ => cases ht

theorem readPropertyAt (h : v.Alike T.Bare v') (hk : key.Alike T.Bare key') :
    T.Even (Value.Alike T.Bare) (Rendering.readPropertyAt E.settings T.env v key)
      (Rendering.readPropertyAt E.settings' T.env' v' key') := by
  unfold Rendering.readPropertyAt
  rw [hk.int?_eq]
  split
  · exact T.readProperty h _
  · exact T.relating.bind (T.bonds.renderText hk) fun _ _ ht => ht ▸ T.readProperty h _

/-! ## Instances -/

theorem enclosed_alike {p p' : Program} (h : p.Rephrased (E.settings.group.naming T.env.here.bound.native) p') :
    (enclosed E.settings T.env p).Alike T.Bare (enclosed E.settings' T.env' p') := by
  have hhere := Version.of_alike T.here
  exact .mk ⟨hhere.native, hhere.recorded, hhere.recorded', h, .some List.mem_cons_self⟩ .nil

variable {bound bound' : Instance}

theorem bindElement (hb : bound.Alike T.Bare bound') (hv : v.Alike T.Bare v') (index : Nat) :
    T.Even (Value.Alike T.Bare) (Rendering.bindElement E.settings T.env bound v index)
      (Rendering.bindElement E.settings' T.env' bound' v' index) := by
  unfold Rendering.bindElement
  rw [(Version.of_alike hb).program.formals.receiver?]
  split
  · exact T.relating.bind (T.report _ _ _ _ _ _) fun _ _ _ => T.relating.pure .null
  · exact T.relating.pure (.template (((hb.bind _ hv).bind _ (.ofNat _)).bind _ (.ofNat _)))

theorem mapValue {templates templates' : List (Option Instance)}
    (ht : List.Forall₂ (Option.Rel (Instance.Alike T.Bare)) templates templates') (hv : v.Alike T.Bare v') :
    T.Even (Value.Alike T.Bare) (Rendering.mapValue E.settings T.env v templates)
      (Rendering.mapValue E.settings' T.env' v' templates') :=
  Pen.mapValue (P := T.pen) ht (fun index hb _ hv => T.bindElement hb hv index) hv

theorem bindNamed (template template' : String) (hb : bound.Alike T.Bare bound') {es es' : List (String × Value)}
    (hes : Entries.Alike T.Bare es es') :
    T.Even (Instance.Alike T.Bare) (Rendering.bindNamed E.settings T.env template bound es)
      (Rendering.bindNamed E.settings' T.env' template' bound' es') := by
  induction es generalizing bound bound' es' with
  | nil =>
    cases hes
    exact T.relating.pure hb
  | cons e es ih =>
    cases hes with
    | cons name hv hes =>
      rw [Rendering.bindNamed, Rendering.bindNamed, (Version.of_alike hb).program.formals.accepts name]
      split
      · exact ih (hb.bind name hv) hes
      · exact T.relating.bind (T.report _ _ _ _ _ _) fun _ _ _ => ih hb hes

variable {T} {names : Option (List String)} {passed passed' : Passed}

/-- An instance takes what is passed by names if these are those of its parameters. -/
theorem bindArguments (template template' : String) (hb : bound.Alike T.Bare bound')
    (hp : passed.Alike T.Bare names passed')
    (hn : ∀ ns ∈ names, ns.Nodup ∧ bound.program.formals.parameters.map Parameter.name = ns) :
    T.Attempted (Instance.Alike T.Bare) (Rendering.bindArguments E.settings T.env template bound passed)
      (Rendering.bindArguments E.settings' T.env' template' bound' passed') := by
  have hsame := (Version.of_alike hb).program.formals
  cases hp with
  | @positional vs vs' hv =>
    by_cases hfit : vs.length ≤ bound.program.formals.size
    · rw [bindArguments_fitting hfit, bindArguments_fitting (by rwa [← hsame.size, ← hv.length_eq]), hsame.names]
      exact .pure (hb.bindAll (.zip _ hv))
    · have hlt : vs.length > bound.program.formals.parameters.length := Nat.lt_of_not_le hfit
      have hlt' : vs'.length > bound'.program.formals.parameters.length := by
        rwa [← hv.length_eq, ← Formals.size, ← hsame.size]
      rw [Rendering.bindArguments, Rendering.bindArguments]
      dsimp only
      rw [if_pos hlt, if_pos hlt']
      exact .bind (.lift (T.report _ _ _ _ _ _)) fun _ _ _ =>
        .bind (.failure (Q := fun _ _ => False)) fun _ _ => False.elim
  | named he => exact .lift (T.bindNamed template template' hb he)
  | @byName ns vs vs' es hns hfit hv hperm =>
    obtain ⟨hnodup, rfl⟩ := hn ns hns
    have haccepted : ∀ e ∈ es, bound'.program.formals.accepts e.1 = true := fun e he => by
      rw [Formals.accepts_iff]
      have hm := (List.of_mem_zip (hperm.subset he)).1
      rw [hsame.names] at hm
      exact .inr (.inr (List.mem_map.mp hm))
    have hnames : (es.map Prod.fst).Nodup := by
      rw [(hperm.map Prod.fst).nodup_iff, zip_fst_of_le (by rwa [← hv.length_eq])]
      exact hnodup.sublist (List.take_sublist _ _)
    rw [bindArguments_fitting (Nat.le_trans hfit (Nat.le_of_eq (List.length_map _))), Rendering.bindArguments,
      bindNamed_accepted haccepted, bound'.bindAll_perm hperm hnames]
    exact .pure (hb.bindAll (.zip _ hv))

/-! ## Callees -/

theorem found (callee : Callee) :
    Group.FoundRephrased E.settings.group callee.name (T.left.found callee) (T.right.found callee) := by
  have hhere := (Version.of_alike T.here).native.findCallee? callee
  rw [Group.findCallee?, Group.findCallee?] at hhere
  rw [Standpoint.found, Standpoint.found]
  split
  · next hi => rwa [if_pos hi, if_pos hi] at hhere
  · exact E.groups.find? callee.name

/-- What is found for a callee has the names of parameters by which it may be passed arguments. -/
theorem takes_found {callee : Callee} {ns : List String}
    (h : E.settings.group.naming T.env.here.bound.native callee ns) : ns.Nodup ∧ ∃ ps,
      ((T.left.found callee).map fun f => f.2.formals) = some (.declared ps) ∧ ps.map Parameter.name = ns := by
  obtain ⟨⟨hnodup, ps, hps, hnames⟩, hroot⟩ := h
  refine ⟨hnodup, ?_⟩
  cases hi : callee.inherited with
  | true =>
    rw [Group.find?_directory, Group.findCallee?, if_pos hi] at hps
    exact ⟨ps, by rwa [Standpoint.found, if_pos hi], hnames⟩
  | false =>
    obtain ⟨-, ps, hps, hnames⟩ := hroot hi
    rw [Group.find?_directory, Group.findCallee?, if_neg (Bool.eq_false_iff.mp hi)] at hps
    exact ⟨ps, by rwa [Standpoint.found, if_neg (Bool.eq_false_iff.mp hi)], hnames⟩

theorem instantiate (callee : Callee) (hp : passed.Alike T.Bare names passed')
    (hn : ∀ ns ∈ names, E.settings.group.naming T.env.here.bound.native callee ns) :
    T.Attempted (Instance.Alike T.Bare) (Rendering.instantiate E.settings T.env callee passed)
      (Rendering.instantiate E.settings' T.env' callee passed') := by
  have hhere := Version.of_alike T.here
  have hfresh := (T.found callee).freshly
  have hresolve : T.Even (fun r r' => r = Group.freshly callee.name (T.left.found callee) ∧
      r' = Group.freshly callee.name (T.right.found callee)) (resolve E.settings T.env callee)
      (resolve E.settings' T.env' callee) :=
    ⟨_, _, [], ⟨rfl, rfl⟩, T.left.resolve E.recorded hhere.recorded, T.right.resolve E.recorded' hhere.recorded'⟩
  refine .bind (.lift hresolve) ?_
  rintro _ _ ⟨rfl, rfl⟩
  generalize hr : Group.freshly callee.name (T.left.found callee) = r,
    hr' : Group.freshly callee.name (T.right.found callee) = r' at hfresh
  cases hfresh with
  | error e => cases e <;> exact .bind (.lift (T.report _ _ _ _ _ _)) fun _ _ _ => .failure
  | ok hg hprogram =>
    obtain ⟨d, hd⟩ := Group.found_of_freshly hr
    obtain ⟨d', hd'⟩ := Group.found_of_freshly hr'
    refine T.bindArguments _ _ (.mk ⟨hg, ?_, ?_, hprogram, .none⟩ .nil) hp fun ns hns => ?_
    · exact (Standpoint.recorded_found (S := T.left) E.recorded hhere.recorded hd).1
    · exact (Standpoint.recorded_found (S := T.right) E.recorded' hhere.recorded' hd').1
    · obtain ⟨hnodup, ps, hps, hnames⟩ := T.takes_found (hn ns hns)
      have hformals := hps.symm.trans (Group.formals_of_freshly hr)
      exact ⟨hnodup, by rw [Instance.ofProgram, ← Option.some.inj hformals]; exact hnames⟩

theorem instantiateComputed (name : String) (hp : passed.Alike T.Bare none passed') :
    T.Attempted (Instance.Alike T.Bare) (Rendering.instantiateComputed E.settings T.env name passed)
      (Rendering.instantiateComputed E.settings' T.env' name passed') := by
  have hcall := T.instantiate ⟨name, false⟩ hp (by rintro _ ⟨⟩)
  unfold Rendering.instantiateComputed
  split
  · exact .bind (.lift (T.report _ _ _ _ _ _)) fun _ _ _ =>
      .bind (.failure (Q := fun _ _ => False)) fun _ _ => False.elim
  · exact hcall

end Edition.Stage

end Stencil
